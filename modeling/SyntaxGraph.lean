import SyntaxGraph.Main
import SyntaxGraph.Program.Assembly
import SyntaxGraph.Proofs.Walk.Closure
import SyntaxGraph.Proofs.Walk.Recursion
import SyntaxGraph.Proofs.Program.Cycles
import SyntaxGraph.Proofs.Program.Builds
import SyntaxGraph.Proofs.Program.Kinds
import SyntaxGraph.Proofs.Program.Dump
import SyntaxGraph.Proofs.Declarator.Complete
import SyntaxGraph.Proofs.Token.Layout
import SyntaxGraph.Proofs.Scope.Body
import SyntaxGraph.Proofs.Token.Writing
import SyntaxGraph.Proofs.Program.Spans
import SyntaxGraph.Proofs.Program.Appending
import SyntaxGraph.Proofs.Program.Suffixes
import SyntaxGraph.Proofs.Graph.Unbound
import SyntaxGraph.Proofs.Token.Joined
import SyntaxGraph.Proofs.Walk.Unbound
import SyntaxGraph.Emission.Session
import SyntaxGraph.Proofs.CommandLine.Disk
import SyntaxGraph.Proofs.CommandLine.Files
import SyntaxGraph.Proofs.CommandLine.Output
import SyntaxGraph.Proofs.Emission.Session
import SyntaxGraph.Proofs.Emission.Directives
import SyntaxGraph.Proofs.Specifiers.Qualified
import SyntaxGraph.Proofs.Specifiers.Order
import SyntaxGraph.Proofs.Token.Failure
import SyntaxGraph.Proofs.Token.Munch
import SyntaxGraph.Proofs.Statement.OpenEnded
import SyntaxGraph.Proofs.Typedef.Program
import SyntaxGraph.Proofs.Program.Fields
import SyntaxGraph.Proofs.Declarator.Sharing
