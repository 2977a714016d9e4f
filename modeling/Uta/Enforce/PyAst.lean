/- The Python syntax trees that the mutation planner walks, and the questions it
asks about the place of a node in its tree. -/
import Mathlib.Data.List.Infix
import Mathlib.Tactic.Common

namespace Uta.Enforce

/-! Trees. -/

inductive ConstantValue where
  | none | true | other
  deriving DecidableEq, Repr

/-- The node classes that the planner tells apart; `ast.Not` is the flag of its
operation, and operators and contexts are left out. -/
inductive Kind where
  | module | functionDef (name : String) | asyncFunctionDef (name : String) | classDef (name : String)
  | return | delete | assign | augAssign | annAssign | for | while | if | raise | assert
  | import | importFrom | expr | pass | break | continue
  | boolOp | binOp | unaryOp (not_ : Bool) | compare | call | joinedStr | constant (value : ConstantValue)
  | attribute (attr : String) | subscript | name (id : String) | list | tuple | set | dict | await
  | arguments | arg | other
  deriving DecidableEq, Repr

/-- The field of its parent in which a node stands. -/
inductive Role where
  | body | decoratorList | returns | args | keywords | func | value | test | iter | targets | target
  | annotationField | defaults | kwDefaults | other
  deriving DecidableEq, Repr

/-- A node with its first and last line, if it has a place in the text, and its
children in the order of the fields. -/
inductive Node where
  | mk (kind : Kind) (role : Role) (lines : Option (ℕ × ℕ)) (children : List Node)
  deriving Repr

namespace Node

def kind : Node → Kind
  | mk k _ _ _ => k

def role : Node → Role
  | mk _ r _ _ => r

def children : Node → List Node
  | mk _ _ _ cs => cs

/-- `int(getattr(node, "lineno", 0) or 0)`. -/
def lineno : Node → ℕ
  | mk _ _ lines _ => (lines.map Prod.fst).getD 0

/-- `int(getattr(node, "end_lineno", start) or start)`. -/
def endLineno : Node → ℕ
  | mk _ _ lines _ => (lines.map Prod.snd).getD 0

/-- The children in one field. -/
def field (n : Node) (r : Role) : List Node := n.children.filter fun c => c.role = r

def isCallable (n : Node) : Bool :=
  match n.kind with
  | .functionDef _ | .asyncFunctionDef _ => true
  | _ => false

def isClass (n : Node) : Bool :=
  match n.kind with
  | .classDef _ => true
  | _ => false

def isConstant (n : Node) : Bool :=
  match n.kind with
  | .constant _ => true
  | _ => false

/-- The name of a definition. -/
def defName (n : Node) : String :=
  match n.kind with
  | .functionDef name | .asyncFunctionDef name | .classDef name => name
  | _ => "<module>"

mutual

def depth : Node → ℕ
  | mk _ _ _ cs => depthAll cs + 1

def depthAll : List Node → ℕ
  | [] => 0
  | n :: ns => max n.depth (depthAll ns)

end

mutual

/-- `_call_name_parts`; the one child of an attribute is its value. -/
def callNameParts : Node → List String
  | mk (.attribute attr) _ _ cs => attr :: callNamePartsFirst cs
  | mk (.name id) _ _ _ => [id]
  | _ => []

def callNamePartsFirst : List Node → List String
  | [] => []
  | n :: _ => callNameParts n

end

/-- `_target_name`. -/
def targetName (n : Node) : String :=
  match n.kind with
  | .name id => id
  | .attribute attr => attr
  | _ => ""

/-- `_is_isinstance_call`. -/
def isIsinstanceCall (n : Node) : Bool :=
  n.kind == .call && (n.field .func).any fun f => f.kind == .name "isinstance"

mutual

/-- `_low_yield_guard`; the one child of a unary operation is its operand. -/
def lowYieldGuard : Node → Bool
  | mk (.unaryOp true) _ _ cs => lowYieldGuardFirst cs
  | mk (.name _) _ _ _ | mk (.attribute _) _ _ _ | mk .subscript _ _ _ => true
  | n => n.isIsinstanceCall

def lowYieldGuardFirst : List Node → Bool
  | [] => false
  | n :: _ => lowYieldGuard n

end

end Node

/-! Places. -/

/-- A node, and the way up to the root: each ancestor, and which of its children
leads down. -/
structure Located where
  node : Node
  path : List (ℕ × Node)
  deriving Repr

namespace Located

def children (l : Located) : List Located :=
  l.node.children.zipIdx.map fun (child, i) => ⟨child, (i, l.node) :: l.path⟩

def parent (l : Located) : Option Node := l.path.head?.map Prod.snd

def parentKind (l : Located) : Option Kind := l.parent.map Node.kind

end Located

/-- `depth` levels of a breadth-first walk. -/
def walkLevels : ℕ → List Located → List Located
  | 0, _ => []
  | depth + 1, level => level ++ walkLevels depth (level.flatMap Located.children)

/-- `ast.walk`. -/
def walk (tree : Node) : List Located := walkLevels tree.depth [⟨tree, []⟩]

/-- The answer of the first ancestor that decides, on the way up from `current`. -/
def decideUp (decides : Node → Node → List (ℕ × Node) → Option Bool) :
    Node → List (ℕ × Node) → Bool
  | _, [] => false
  | current, (_, parent) :: rest => (decides current parent rest).getD (decideUp decides parent rest)

namespace Located
variable (l : Located)

/-- `_inside_mutmut3_materializable_callable`. -/
def insideMaterializableCallable : Bool :=
  decideUp (fun _ parent rest =>
    if parent.isCallable then
      some (rest.head?.any fun (_, owner) => owner.kind == .module || owner.isClass)
    else none) l.node l.path

/-- `_nested_callable`. -/
def nestedCallable : Bool :=
  l.node.isCallable && l.parent.any fun parent => !(parent.kind == .module || parent.isClass)

/-- `_inside_function_default`. -/
def insideFunctionDefault : Bool :=
  decideUp (fun current parent _ =>
    if parent.kind = .arguments then
      some (current.role == .defaults || current.role == .kwDefaults)
    else none) l.node l.path

/-- `_inside_decorator`. -/
def insideDecorator : Bool :=
  decideUp (fun current parent _ =>
    if (parent.isCallable || parent.isClass) && current.role == .decoratorList then some true
    else none) l.node l.path

/-- `_inside_raise`. -/
def insideRaise : Bool :=
  decideUp (fun _ parent _ => if parent.kind = .raise then some true else none) l.node l.path

/-- `_inside_formatted_string`. -/
def insideFormattedString : Bool :=
  decideUp (fun _ parent _ => if parent.kind = .joinedStr then some true else none) l.node l.path

/-- `_inside_annotation`. -/
def insideAnnotation : Bool :=
  decideUp (fun current parent _ =>
    if (parent.kind == .annAssign || parent.kind == .arg) && current.role == .annotationField ||
      parent.isCallable && current.role == .returns then some true
    else none) l.node l.path

/-- `_inside_class_field_definition`. -/
def insideClassFieldDefinition : Bool :=
  if l.node.kind = .annAssign then l.parent.any Node.isClass
  else decideUp (fun _ parent rest =>
    if parent.kind = .annAssign then some (rest.head?.any fun (_, owner) => owner.isClass)
    else none) l.node l.path

/-- `_inside_docstring`. -/
def insideDocstring : Bool :=
  match l.path with
  | (_, parent) :: (i, owner) :: _ =>
    parent.kind == .expr && l.node.role == .value &&
      (owner.kind == .module || owner.isCallable || owner.isClass) &&
      owner.children.findIdx? (fun c => c.role == .body) == some i
  | _ => false

/-- `_no_argument_call_without_value_mutation`. -/
def noArgumentCallWithoutValueMutation : Bool :=
  (l.node.field .args).isEmpty && (l.node.field .keywords).isEmpty &&
    (l.parentKind == some .expr && l.node.role == .value ||
      l.parentKind == some .for && l.node.role == .iter)

end Located
end Uta.Enforce
