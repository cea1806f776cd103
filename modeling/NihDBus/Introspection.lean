import Mathlib
import NihDBus.Xml

/-!
# The D-Bus introspection format

What an introspection document says, and how it is read. A document is a
`node` element naming the object, holding `interface` elements and child
`node` elements in order; an interface holds `method`, `signal` and
`property` elements, and methods and signals hold `arg` elements. Names,
types, directions and access modes are attributes.

- `NodeDesc`, `InterfaceDesc`, `MemberDesc`, `ArgDesc`: what a document says,
  with the attributes the format makes optional as `Option`.
- `readStep` reads one token into a pushdown state that keeps the element
  being read and its enclosing ones; `readFrom` runs it, and `readIntrospection`
  reads a whole document: line ends normalised, lexed, and read. Child nodes
  are read without content, which is how `dbus.c` writes them; anything else
  outside the format is refused.
- `readFrom_append` lets a proof read a document piece by piece.
-/

namespace NihDBus

/-! ## Descriptions -/

/-- An `arg` element: its name, type and direction. -/
structure ArgDesc where
  name : Option String
  type : String
  direction : Option String
  deriving DecidableEq, Repr

/-- A member of an interface. -/
inductive MemberDesc
  | method (name : String) (args : List ArgDesc)
  | signal (name : String) (args : List ArgDesc)
  | property (name type access : String)
  deriving DecidableEq, Repr

/-- An `interface` element. -/
structure InterfaceDesc where
  name : String
  members : List MemberDesc
  deriving DecidableEq, Repr

/-- What a `node` element holds, in document order. -/
inductive NodeItem
  | interface (i : InterfaceDesc)
  | node (name : Option String)
  deriving DecidableEq, Repr

/-- A `node` element: the object's name and what it holds. -/
structure NodeDesc where
  name : Option String
  items : List NodeItem
  deriving DecidableEq, Repr

/-! ## The reader -/

/-- An interface being read, inside the node being read. -/
structure IfaceCtx where
  node : NodeDesc
  name : String
  members : List MemberDesc
  deriving DecidableEq, Repr

/-- The interface with one more member. -/
def IfaceCtx.add (i : IfaceCtx) (m : MemberDesc) : IfaceCtx :=
  { i with members := i.members ++ [m] }

/-- The node once the interface is closed. -/
def IfaceCtx.close (i : IfaceCtx) : NodeDesc :=
  { i.node with items := i.node.items ++ [.interface ⟨i.name, i.members⟩] }

/-- Where the reader is: before the root node, inside it, inside one of its
interfaces, inside a method or a signal, or after the root node. -/
inductive ReadState
  | prolog
  | node (n : NodeDesc)
  | iface (i : IfaceCtx)
  | method (i : IfaceCtx) (name : String) (args : List ArgDesc)
  | signal (i : IfaceCtx) (name : String) (args : List ArgDesc)
  | done (n : NodeDesc)
  deriving DecidableEq, Repr

/-- An `arg` element's attributes; the type is required. -/
def readArg (attrs : List (String × String)) : Option ArgDesc :=
  (attrs.lookup "type").map fun type => ⟨attrs.lookup "name", type, attrs.lookup "direction"⟩

/-- A `property` element's attributes, all three required. -/
def readProperty (attrs : List (String × String)) : Option MemberDesc := do
  let name ← attrs.lookup "name"
  let type ← attrs.lookup "type"
  let access ← attrs.lookup "access"
  pure (.property name type access)

/-- One token. -/
def readStep : ReadState → XmlToken → Option ReadState
  | .prolog, .decl _ => some .prolog
  | .prolog, .start "node" attrs => some (.node ⟨attrs.lookup "name", []⟩)
  | .prolog, .empty "node" attrs => some (.done ⟨attrs.lookup "name", []⟩)
  | .node n, .start "interface" attrs =>
    (attrs.lookup "name").map fun name => .iface ⟨n, name, []⟩
  | .node n, .empty "interface" attrs =>
    (attrs.lookup "name").map fun name =>
      .node { n with items := n.items ++ [.interface ⟨name, []⟩] }
  | .node n, .empty "node" attrs =>
    some (.node { n with items := n.items ++ [.node (attrs.lookup "name")] })
  | .node n, .stop "node" => some (.done n)
  | .iface i, .start "method" attrs => (attrs.lookup "name").map fun name => .method i name []
  | .iface i, .empty "method" attrs =>
    (attrs.lookup "name").map fun name => .iface (i.add (.method name []))
  | .iface i, .start "signal" attrs => (attrs.lookup "name").map fun name => .signal i name []
  | .iface i, .empty "signal" attrs =>
    (attrs.lookup "name").map fun name => .iface (i.add (.signal name []))
  | .iface i, .empty "property" attrs => (readProperty attrs).map fun m => .iface (i.add m)
  | .iface i, .stop "interface" => some (.node i.close)
  | .method i name args, .empty "arg" attrs =>
    (readArg attrs).map fun a => .method i name (args ++ [a])
  | .method i name args, .stop "method" => some (.iface (i.add (.method name args)))
  | .signal i name args, .empty "arg" attrs =>
    (readArg attrs).map fun a => .signal i name (args ++ [a])
  | .signal i name args, .stop "signal" => some (.iface (i.add (.signal name args)))
  | _, _ => none

/-- The reader run over tokens. -/
def readFrom : ReadState → List XmlToken → Option ReadState
  | s, [] => some s
  | s, t :: ts => (readStep s t).bind (readFrom · ts)

/-- **Reading an introspection document**: normalise line ends, lex, and read
one root node. -/
def readIntrospection (doc : String) : Option NodeDesc :=
  (lex .text (normalizeEol doc.data)).bind fun ts =>
    match readFrom .prolog ts with
    | some (.done n) => some n
    | _ => none

/-- Reading tokens in two parts. -/
theorem readFrom_append (s : ReadState) (xs ys : List XmlToken) :
    readFrom s (xs ++ ys) = (readFrom s xs).bind (readFrom · ys) := by
  induction xs generalizing s with
  | nil => rfl
  | cons t xs ih =>
    simp only [List.cons_append, readFrom]
    cases readStep s t with
    | none => rfl
    | some s' => exact ih s'

end NihDBus
