import SyntaxGraph.Source.Location
import SyntaxGraph.Node.Id

/-!
# Type nodes

One node type serves every kind of type.  Which fields mean something depends on
the kind: a pointer, an array and a function have a base; an array may have a
width, its length, and an integer type a width, its number of bits; functions,
structures, unions and enumerations have declarations (parameters, members,
enumerators); structures, unions and enumerations may have a tag; a typedef name
has a name.  A structure, union or enumeration that has not been defined yet has
no declarations.
-/

set_option autoImplicit false

namespace SyntaxGraph

inductive TypeKind
  | void | bool | char | schar | uchar | short | ushort | int | uint | long | ulong
  | longlong | ulonglong | float | double | longDouble
  | pointer | array | function | struct | union | enum | typedef
deriving DecidableEq, Inhabited

namespace TypeKind

def all : List TypeKind :=
  [.void, .bool, .char, .schar, .uchar, .short, .ushort, .int, .uint, .long, .ulong,
   .longlong, .ulonglong, .float, .double, .longDouble,
   .pointer, .array, .function, .struct, .union, .enum, .typedef]

def name : TypeKind → String
  | .void => "Void"
  | .bool => "Bool"
  | .char => "Char"
  | .schar => "Schar"
  | .uchar => "Uchar"
  | .short => "Short"
  | .ushort => "Ushort"
  | .int => "Int"
  | .uint => "Uint"
  | .long => "Long"
  | .ulong => "Ulong"
  | .longlong => "Longlong"
  | .ulonglong => "Ulonglong"
  | .float => "Float"
  | .double => "Double"
  | .longDouble => "LongDouble"
  | .pointer => "Ptr"
  | .array => "Array"
  | .function => "Func"
  | .struct => "Struct"
  | .union => "Union"
  | .enum => "Enum"
  | .typedef => "Typedef"

def ofName? (text : String) : Option TypeKind := all.find? fun kind => kind.name = text

/-- The arithmetic kinds and `void`, which are built on no other type. -/
def isBasic : TypeKind → Bool
  | .pointer | .array | .function | .struct | .union | .enum | .typedef => false
  | _ => true

/-- The kinds that a bit-field may have; a typedef name is trusted to name one. -/
def isInteger : TypeKind → Bool
  | .bool | .char | .schar | .uchar | .short | .ushort | .int | .uint | .long | .ulong
  | .longlong | .ulonglong | .enum | .typedef => true
  | _ => false

def isRecord : TypeKind → Bool
  | .struct | .union => true
  | _ => false

end TypeKind

structure Qualifiers where
  isConst : Bool
  isVolatile : Bool
deriving DecidableEq, Inhabited

def Qualifiers.none : Qualifiers := ⟨false, false⟩

def Qualifiers.isEmpty (q : Qualifiers) : Bool := !q.isConst && !q.isVolatile

structure TypeNode where
  kind : TypeKind
  qualifiers : Qualifiers := .none
  base : Option TypeId := none
  tag : Option String := none
  name : Option String := none
  decls : List DeclId := []
  width : Option ExprId := none
  variadic : Bool := false
  span : Span
deriving DecidableEq, Inhabited

namespace TypeNode

def basic (kind : TypeKind) (span : Span) : TypeNode := { kind, span }

def bitField (kind : TypeKind) (width : ExprId) (span : Span) : TypeNode :=
  { kind, span, width := some width }

def pointer (base : TypeId) (span : Span) : TypeNode :=
  { kind := .pointer, span, base := some base }

def array (base : TypeId) (length : Option ExprId) (span : Span) : TypeNode :=
  { kind := .array, span, base := some base, width := length }

def function (result : TypeId) (parameters : List DeclId) (variadic : Bool) (span : Span) :
    TypeNode :=
  { kind := .function, span, base := some result, decls := parameters, variadic }

/-- A structure, a union or an enumeration, by its kind. -/
def tagged (kind : TypeKind) (tag : Option String) (decls : List DeclId) (span : Span) :
    TypeNode :=
  { kind, span, tag, decls }

def typedefName (name : String) (span : Span) : TypeNode :=
  { kind := .typedef, span, name := some name }

def qualified (type : TypeNode) (qualifiers : Qualifiers) : TypeNode := { type with qualifiers }

end TypeNode

end SyntaxGraph
