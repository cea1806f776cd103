import Mathlib
import NihDBus.Introspect
import NihDBus.Introspection

/-!
# Reading back the introspection document (dbus.c:1051–1230)

What a client reads from the document `nih_dbus_object_introspect` sends.
Every format string of the function writes one tag on a line of its own, so
the document is its document type declaration followed by lines of
`renderLine`; the reader of `NihDBus.Introspection` then rebuilds the
object's description from them.

- `introspectLines` lays the document out as indented tokens, one per line,
  and `introspectDocument_data` shows that the function's pieces are exactly
  those lines.
- `introspectionOf` is what the document ought to say of an object, written
  from what the format means: the root node named by the path, the
  Introspectable interface, the table's interfaces with their members in
  table order, the Properties interface if some interface declares a
  property, and a child node per registered child.
- `introspectDocument_reads`: when the object's strings can stand in an
  attribute value (no quote, `<`, `&` or carriage return, XML characters
  only), the document is well-formed and reads back as `introspectionOf` of
  the object with each string as XML reads an attribute value, its tabs and
  line feeds turned into spaces. `dbus.c` writes the strings without escaping
  them, so that change is visible to a reader: `introspect_tab_reads_as_space`.
-/

namespace NihDBus

/-! ## The document line by line -/

/-- The line of a method's argument. -/
def methodArgLine (arg : NihDBusArg) : Nat × XmlToken :=
  (6, .empty "arg" [("name", arg.name), ("type", arg.type),
    ("direction", if arg.dir = .argIn then "in" else "out")])

/-- The lines of a method. -/
def methodLines (m : NihDBusMethod) : List (Nat × XmlToken) :=
  (4, .start "method" [("name", m.name)]) :: m.args.map methodArgLine ++ [(4, .stop "method")]

/-- The line of a signal's argument. -/
def signalArgLine (arg : NihDBusArg) : Nat × XmlToken :=
  (6, .empty "arg" [("name", arg.name), ("type", arg.type)])

/-- The lines of a signal. -/
def signalLines (s : NihDBusSignal) : List (Nat × XmlToken) :=
  (4, .start "signal" [("name", s.name)]) :: s.args.map signalArgLine ++ [(4, .stop "signal")]

/-- The line of a property. -/
def propertyLine (prop : NihDBusProperty) : Nat × XmlToken :=
  (4, .empty "property" [("name", prop.name), ("type", prop.type),
    ("access",
      if prop.access = .read then "read"
      else if prop.access = .write then "write" else "readwrite")])

/-- The lines of an interface of the table. -/
def interfaceLines (iface : NihDBusInterface) : List (Nat × XmlToken) :=
  (2, .start "interface" [("name", iface.name)]) ::
    iface.methods.flatMap methodLines ++ iface.signals.flatMap signalLines ++
    iface.properties.map propertyLine ++ [(2, .stop "interface")]

/-- The lines of the Introspectable interface. -/
def introspectableLines (names : DBusNames) : List (Nat × XmlToken) :=
  [(2, .start "interface" [("name", names.interfaceIntrospectable)]),
   (4, .start "method" [("name", "Introspect")]),
   (6, .empty "arg" [("name", "data"), ("type", "s"), ("direction", "out")]),
   (4, .stop "method"),
   (2, .stop "interface")]

/-- The lines of the Properties interface. -/
def propertiesLines (names : DBusNames) : List (Nat × XmlToken) :=
  [(2, .start "interface" [("name", names.interfaceProperties)]),
   (4, .start "method" [("name", "Get")]),
   (6, .empty "arg" [("name", "interface_name"), ("type", "s"), ("direction", "in")]),
   (6, .empty "arg" [("name", "property_name"), ("type", "s"), ("direction", "in")]),
   (6, .empty "arg" [("name", "value"), ("type", "v"), ("direction", "out")]),
   (4, .stop "method"),
   (4, .start "method" [("name", "Set")]),
   (6, .empty "arg" [("name", "interface_name"), ("type", "s"), ("direction", "in")]),
   (6, .empty "arg" [("name", "property_name"), ("type", "s"), ("direction", "in")]),
   (6, .empty "arg" [("name", "value"), ("type", "v"), ("direction", "in")]),
   (4, .stop "method"),
   (4, .start "method" [("name", "GetAll")]),
   (6, .empty "arg" [("name", "interface_name"), ("type", "s"), ("direction", "in")]),
   (6, .empty "arg" [("name", "props"), ("type", "a{sv}"), ("direction", "out")]),
   (4, .stop "method"),
   (2, .stop "interface")]

/-- The Introspectable interface as an entry of an interface table; its lines
are `introspectableLines`. -/
def introspectableInterface (names : DBusNames) : NihDBusInterface :=
  ⟨names.interfaceIntrospectable,
    [⟨"Introspect", none, [⟨"data", "s", .argOut⟩]⟩], [], []⟩

/-- The Properties interface as an entry of an interface table; its lines are
`propertiesLines`. -/
def propertiesInterface (names : DBusNames) : NihDBusInterface :=
  ⟨names.interfaceProperties,
    [⟨"Get", none, [⟨"interface_name", "s", .argIn⟩, ⟨"property_name", "s", .argIn⟩,
       ⟨"value", "v", .argOut⟩]⟩,
     ⟨"Set", none, [⟨"interface_name", "s", .argIn⟩, ⟨"property_name", "s", .argIn⟩,
       ⟨"value", "v", .argIn⟩]⟩,
     ⟨"GetAll", none, [⟨"interface_name", "s", .argIn⟩, ⟨"props", "a{sv}", .argOut⟩]⟩],
    [], []⟩

theorem introspectableLines_eq (names : DBusNames) :
    introspectableLines names = interfaceLines (introspectableInterface names) := rfl

theorem propertiesLines_eq (names : DBusNames) :
    propertiesLines names = interfaceLines (propertiesInterface names) := rfl

/-- The line of a child node. -/
def childLine (name : String) : Nat × XmlToken := (2, .empty "node" [("name", name)])

/-- The lines after the document type declaration. -/
def introspectLines (names : DBusNames) (obj : NihDBusObject) (registered : List String) :
    List (Nat × XmlToken) :=
  (0, .start "node" [("name", obj.path)]) :: introspectableLines names ++
    obj.interfaces.flatMap interfaceLines ++
    (if hasProperties obj.interfaces then propertiesLines names else []) ++
    registered.map childLine ++ [(0, .stop "node")]

section Pieces

/-! Each format string of the function is the rendering of its lines. -/

theorem nodePiece_data (path : String) :
    (nodePiece path).data = renderLine (0, .start "node" [("name", path)]) := by
  simp [nodePiece, renderLine, renderToken, renderAttrs]

theorem interfacePiece_data (name : String) :
    (interfacePiece name).data = renderLine (2, .start "interface" [("name", name)]) := by
  simp [interfacePiece, renderLine, renderToken, renderAttrs]

theorem methodPiece_data (name : String) :
    (methodPiece name).data = renderLine (4, .start "method" [("name", name)]) := by
  simp [methodPiece, renderLine, renderToken, renderAttrs]

theorem signalPiece_data (name : String) :
    (signalPiece name).data = renderLine (4, .start "signal" [("name", name)]) := by
  simp [signalPiece, renderLine, renderToken, renderAttrs]

theorem methodArgPiece_data (arg : NihDBusArg) :
    (methodArgPiece arg).data = renderLine (methodArgLine arg) := by
  simp [methodArgPiece, methodArgLine, renderLine, renderToken, renderAttrs]

theorem signalArgPiece_data (arg : NihDBusArg) :
    (signalArgPiece arg).data = renderLine (signalArgLine arg) := by
  simp [signalArgPiece, signalArgLine, renderLine, renderToken, renderAttrs]

theorem propertyPiece_data (prop : NihDBusProperty) :
    (propertyPiece prop).data = renderLine (propertyLine prop) := by
  simp [propertyPiece, propertyLine, renderLine, renderToken, renderAttrs]

theorem childPiece_data (name : String) : (childPiece name).data = renderLine (childLine name) := by
  simp [childPiece, childLine, renderLine, renderToken, renderAttrs]

theorem endPieces_data :
    methodEndPiece.data = renderLine (4, .stop "method") ∧
      signalEndPiece.data = renderLine (4, .stop "signal") ∧
      interfaceEndPiece.data = renderLine (2, .stop "interface") ∧
      nodeEndPiece.data = renderLine (0, .stop "node") :=
  ⟨rfl, rfl, rfl, rfl⟩

theorem introspectablePiece_data (names : DBusNames) :
    (introspectablePiece names).data = (introspectableLines names).flatMap renderLine := by
  simp [introspectablePiece, introspectableLines, renderLine, renderToken, renderAttrs]

set_option maxRecDepth 4000 in
theorem propertiesPiece_data (names : DBusNames) :
    (propertiesPiece names).data = (propertiesLines names).flatMap renderLine := by
  simp only [propertiesPiece, String.data_append, List.append_assoc]
  simp only [propertiesLines, List.flatMap_cons, List.flatMap_nil, renderLine, renderToken,
    renderAttrs, List.append_assoc, List.cons_append, List.nil_append, List.append_nil,
    List.singleton_append]
  rfl

theorem interfacePieces_data (iface : NihDBusInterface) :
    (interfacePieces iface).flatMap String.data = (interfaceLines iface).flatMap renderLine := by
  simp only [interfacePieces, interfaceLines, List.flatMap_append, List.flatMap_cons,
    List.flatMap_nil, List.flatMap_assoc, List.flatMap_map, List.flatMap_singleton,
    List.append_nil, List.cons_append, List.singleton_append, interfacePiece_data,
    methodPiece_data, signalPiece_data, methodArgPiece_data, signalArgPiece_data,
    propertyPiece_data, endPieces_data, methodLines,
    signalLines, List.append_assoc, List.nil_append]

end Pieces

/-- **The document is its document type declaration and its lines.** -/
theorem introspectDocument_data (names : DBusNames) (obj : NihDBusObject)
    (registered : List String) :
    (introspectDocument names obj registered).data =
      names.introspectDoctype.data ++
        (introspectLines names obj registered).flatMap renderLine := by
  rw [introspectDocument, String.data_append, String.data_join, ← List.flatMap_def]
  simp only [introspectPieces, introspectLines, List.flatMap_append, List.flatMap_cons,
    List.flatMap_nil, List.flatMap_assoc, List.flatMap_map, List.append_nil, List.singleton_append,
    List.cons_append, nodePiece_data, introspectablePiece_data, interfacePieces_data,
    childPiece_data, endPieces_data, List.append_assoc]
  split <;> simp [propertiesPiece_data]

/-! ## What the document says -/

/-- `"in"` for `NIH_DBUS_ARG_IN`, `"out"` otherwise. -/
def directionName : NihDBusArgDir → String
  | .argIn => "in"
  | .argOut => "out"

/-- `"read"` for `NIH_DBUS_READ`, `"write"` for `NIH_DBUS_WRITE`, `"readwrite"` otherwise. -/
def accessName : NihDBusAccess → String
  | .read => "read"
  | .write => "write"
  | .readwrite => "readwrite"

/-- A method's argument: its name, type and direction. -/
def methodArgDesc (arg : NihDBusArg) : ArgDesc :=
  ⟨some arg.name, arg.type, some (directionName arg.dir)⟩

/-- A signal's argument: its name and type. -/
def signalArgDesc (arg : NihDBusArg) : ArgDesc := ⟨some arg.name, arg.type, none⟩

/-- A method with its arguments in array order. -/
def methodDesc (m : NihDBusMethod) : MemberDesc := .method m.name (m.args.map methodArgDesc)

/-- A signal with its arguments in array order. -/
def signalDesc (s : NihDBusSignal) : MemberDesc := .signal s.name (s.args.map signalArgDesc)

/-- A property with its type and access. -/
def propertyDesc (prop : NihDBusProperty) : MemberDesc :=
  .property prop.name prop.type (accessName prop.access)

/-- An interface of the table: its methods, then its signals, then its
properties, each in array order. -/
def interfaceDesc (iface : NihDBusInterface) : InterfaceDesc :=
  ⟨iface.name, iface.methods.map methodDesc ++ iface.signals.map signalDesc ++
    iface.properties.map propertyDesc⟩

/-- The Introspectable interface, with its single method `Introspect`
returning the document. -/
def introspectableDesc (names : DBusNames) : InterfaceDesc :=
  ⟨names.interfaceIntrospectable, [.method "Introspect" [⟨some "data", "s", some "out"⟩]]⟩

/-- The Properties interface, with `Get`, `Set` and `GetAll`. -/
def propertiesDesc (names : DBusNames) : InterfaceDesc :=
  ⟨names.interfaceProperties,
    [.method "Get" [⟨some "interface_name", "s", some "in"⟩,
       ⟨some "property_name", "s", some "in"⟩, ⟨some "value", "v", some "out"⟩],
     .method "Set" [⟨some "interface_name", "s", some "in"⟩,
       ⟨some "property_name", "s", some "in"⟩,
       ⟨some "value", "v", some "in"⟩],
     .method "GetAll"
       [⟨some "interface_name", "s", some "in"⟩, ⟨some "props", "a{sv}", some "out"⟩]]⟩

/-- **What the document of an object says**: a root node named by the path;
the Introspectable interface; the table's interfaces in table order; the
Properties interface if some interface declares a property; one child node
per registered child. -/
def introspectionOf (names : DBusNames) (obj : NihDBusObject) (registered : List String) :
    NodeDesc :=
  ⟨some obj.path,
    .interface (introspectableDesc names) :: obj.interfaces.map (.interface ∘ interfaceDesc) ++
      (if ∃ iface ∈ obj.interfaces, iface.properties ≠ [] then
        [.interface (propertiesDesc names)]
       else []) ++
      registered.map (.node ∘ some)⟩

/-! ## Reading the lines -/

/-- Reading lines, group after group, where each group adds one entry to
what the state `mk` has read. -/
theorem readFrom_flatMap {α β : Type} (mk : List β → ReadState)
    (f : α → List (Nat × XmlToken)) (g : α → β)
    (h : ∀ acc x, readFrom (mk acc) ((f x).map Prod.snd) = some (mk (acc ++ [g x]))) :
    ∀ (xs : List α) (acc : List β),
      readFrom (mk acc) ((xs.flatMap f).map Prod.snd) = some (mk (acc ++ xs.map g))
  | [], acc => by simp [readFrom]
  | x :: xs, acc => by
    simp [readFrom_append, h, readFrom_flatMap mk f g h xs]

/-- The same, one line per entry. -/
theorem readFrom_map {α β : Type} (mk : List β → ReadState) (f : α → Nat × XmlToken)
    (g : α → β) (h : ∀ acc x, readStep (mk acc) (f x).2 = some (mk (acc ++ [g x])))
    (xs : List α) (acc : List β) :
    readFrom (mk acc) (xs.map (Prod.snd ∘ f)) = some (mk (acc ++ xs.map g)) := by
  have := readFrom_flatMap mk (fun x => [f x]) g (fun acc x => by simp [readFrom, h]) xs acc
  rwa [← List.map_eq_flatMap, List.map_map] at this

/-- An element: its start tag, what it holds, and its end tag. -/
theorem readFrom_element {s s₁ s₂ s₃ : ReadState} {a b : XmlToken} {inner : List XmlToken}
    (ha : readStep s a = some s₁) (hi : readFrom s₁ inner = some s₂)
    (hb : readStep s₂ b = some s₃) :
    readFrom s (a :: (inner ++ [b])) = some s₃ := by
  simp [readFrom, readFrom_append, ha, hi, hb]

theorem readFrom_methodLines (c : IfaceCtx) (m : NihDBusMethod) :
    readFrom (.iface c) ((methodLines m).map Prod.snd) = some (.iface (c.add (methodDesc m))) := by
  simp only [methodLines, List.map_cons, List.map_append, List.map_map, List.map_nil,
    List.cons_append]
  exact readFrom_element rfl (readFrom_map (.method c m.name) methodArgLine methodArgDesc
    (fun acc ⟨_, _, dir⟩ => by cases dir <;> rfl) m.args []) rfl

theorem readFrom_signalLines (c : IfaceCtx) (s : NihDBusSignal) :
    readFrom (.iface c) ((signalLines s).map Prod.snd) = some (.iface (c.add (signalDesc s))) := by
  simp only [signalLines, List.map_cons, List.map_append, List.map_map, List.map_nil,
    List.cons_append]
  exact readFrom_element rfl
    (readFrom_map (.signal c s.name) signalArgLine signalArgDesc (fun _ _ => rfl) s.args []) rfl

theorem readStep_propertyLine (c : IfaceCtx) (prop : NihDBusProperty) :
    readStep (.iface c) (propertyLine prop).2 = some (.iface (c.add (propertyDesc prop))) := by
  obtain ⟨_, _, access⟩ := prop
  cases access <;> rfl

theorem readFrom_interfaceLines (n : NodeDesc) (iface : NihDBusInterface) :
    readFrom (.node n) ((interfaceLines iface).map Prod.snd) =
      some (.node { n with items := n.items ++ [.interface (interfaceDesc iface)] }) := by
  have hm := readFrom_flatMap (fun ms => .iface ⟨n, iface.name, ms⟩) methodLines methodDesc
    (fun _ m => readFrom_methodLines _ m) iface.methods
  have hs := readFrom_flatMap (fun ms => .iface ⟨n, iface.name, ms⟩) signalLines signalDesc
    (fun _ s => readFrom_signalLines _ s) iface.signals
  have hp := readFrom_map (fun ms => .iface ⟨n, iface.name, ms⟩) propertyLine propertyDesc
    (fun _ p => readStep_propertyLine _ p) iface.properties
  beta_reduce at hm hs hp
  simp only [interfaceLines, List.map_cons, List.map_append, List.map_map, List.map_nil,
    List.cons_append]
  exact readFrom_element rfl (by simp only [readFrom_append, hm, hs, hp, Option.some_bind]; rfl)
    (by rfl)

theorem hasProperties_iff (ifaces : List NihDBusInterface) :
    hasProperties ifaces = true ↔ ∃ iface ∈ ifaces, iface.properties ≠ [] := by
  simp [hasProperties, List.isEmpty_iff]

/-- **The lines read back** as what the document ought to say. -/
theorem readFrom_introspectLines (names : DBusNames) (obj : NihDBusObject)
    (registered : List String) :
    readFrom .prolog ((introspectLines names obj registered).map Prod.snd) =
      some (.done (introspectionOf names obj registered)) := by
  have hi : readFrom (.node ⟨some obj.path, []⟩) ((introspectableLines names).map Prod.snd) =
      some (.node ⟨some obj.path, [.interface (introspectableDesc names)]⟩) := rfl
  have hf := readFrom_flatMap (fun items => .node ⟨some obj.path, items⟩) interfaceLines
    (.interface ∘ interfaceDesc) (fun _ i => readFrom_interfaceLines _ i) obj.interfaces
  have hp : ∀ items, readFrom (.node ⟨some obj.path, items⟩)
      ((if hasProperties obj.interfaces then propertiesLines names else []).map Prod.snd) =
        some (.node ⟨some obj.path, items ++
          if ∃ iface ∈ obj.interfaces, iface.properties ≠ [] then
            [.interface (propertiesDesc names)] else []⟩) := by
    intro items
    by_cases h : hasProperties obj.interfaces
    · rw [if_pos h, if_pos ((hasProperties_iff _).mp h)]
      rfl
    · rw [if_neg h, if_neg (mt (hasProperties_iff _).mpr h)]
      simp [readFrom]
  have hc := readFrom_map (fun items => .node ⟨some obj.path, items⟩) childLine (.node ∘ some)
    (fun _ _ => rfl) registered
  beta_reduce at hf hc
  simp only [introspectLines, List.map_cons, List.map_append, List.map_map, List.map_nil,
    List.cons_append]
  exact @readFrom_element _ (.node ⟨some obj.path, []⟩) _ _ _ _ _ rfl
    (by simp only [readFrom_append, hi, hf, hp, hc, Option.some_bind]; rfl) (by rfl)

/-! ## The strings of an object -/

/-- The strings an argument puts in the document. -/
def NihDBusArg.strings (arg : NihDBusArg) : List String := [arg.name, arg.type]

/-- The strings an interface puts in the document. -/
def NihDBusInterface.strings (iface : NihDBusInterface) : List String :=
  iface.name :: iface.methods.flatMap (fun m => m.name :: m.args.flatMap NihDBusArg.strings) ++
    iface.signals.flatMap (fun s => s.name :: s.args.flatMap NihDBusArg.strings) ++
    iface.properties.flatMap fun p => [p.name, p.type]

/-- The strings an object puts in the document: its path and every name and
type of its table. -/
def NihDBusObject.strings (obj : NihDBusObject) : List String :=
  obj.path :: obj.interfaces.flatMap NihDBusInterface.strings

/-- An argument with `f` applied to its strings. -/
def NihDBusArg.mapStrings (f : String → String) (arg : NihDBusArg) : NihDBusArg :=
  { arg with name := f arg.name, type := f arg.type }

/-- A method with `f` applied to its strings. -/
def NihDBusMethod.mapStrings (f : String → String) (m : NihDBusMethod) : NihDBusMethod :=
  { m with name := f m.name, args := m.args.map (NihDBusArg.mapStrings f) }

/-- A signal with `f` applied to its strings. -/
def NihDBusSignal.mapStrings (f : String → String) (s : NihDBusSignal) : NihDBusSignal :=
  { s with name := f s.name, args := s.args.map (NihDBusArg.mapStrings f) }

/-- A property with `f` applied to its strings. -/
def NihDBusProperty.mapStrings (f : String → String) (p : NihDBusProperty) : NihDBusProperty :=
  { p with name := f p.name, type := f p.type }

/-- An interface with `f` applied to its strings. -/
def NihDBusInterface.mapStrings (f : String → String) (iface : NihDBusInterface) :
    NihDBusInterface :=
  ⟨f iface.name, iface.methods.map (NihDBusMethod.mapStrings f),
    iface.signals.map (NihDBusSignal.mapStrings f),
    iface.properties.map (NihDBusProperty.mapStrings f)⟩

/-- An object with `f` applied to its strings. -/
def NihDBusObject.mapStrings (f : String → String) (obj : NihDBusObject) : NihDBusObject :=
  { obj with path := f obj.path, interfaces := obj.interfaces.map (NihDBusInterface.mapStrings f) }

/-- The characters of a D-Bus interface name stand in an attribute value as
they are. -/
theorem isValueChar_of_interfaceNameChar {c : Char} (h : c.isAlphanum ∨ c = '_' ∨ c = '.') :
    isValueChar c ∧ normalizeValueChar c = c := by
  rcases h with h | rfl | rfl
  · have hne : ∀ d : Char, d.isAlphanum = false → c ≠ d := by rintro d hd rfl; simp_all
    have hv : 48 ≤ c.val.toNat ∧ c.val.toNat ≤ 122 := by
      simp only [Char.isAlphanum, Char.isAlpha, Char.isUpper, Char.isLower, Char.isDigit,
        Bool.or_eq_true, Bool.and_eq_true, decide_eq_true_eq, UInt32.le_def, UInt32.toBitVec_ofNat,
        BitVec.le_def, BitVec.toNat_ofNat, UInt32.toNat, ge_iff_le] at h ⊢
      omega
    have hx : isXmlChar c := by
      have hbig : ∀ n : UInt32, 122 < n.toNat → c.val ≠ n := by rintro n hn rfl; omega
      simp only [isXmlChar, Bool.or_eq_true, Bool.and_eq_true, decide_eq_true_eq, bne_iff_ne, ne_eq,
        hbig 65534 (by decide), hbig 65535 (by decide), not_false_eq_true, and_true]
      right
      simp only [UInt32.le_def, UInt32.toBitVec_ofNat, BitVec.le_def, BitVec.toNat_ofNat]
      simp only [UInt32.toNat] at hv
      omega
    exact ⟨by simp [isValueChar, hne '"' rfl, hne '<' rfl, hne '&' rfl, hne '\r' rfl, hx],
      by simp [normalizeValueChar, isXmlSpace, hne ' ' rfl, hne '\t' rfl, hne '\n' rfl]⟩
  · decide
  · decide

/-- A string of alphanumerics, `_` and `.`, as both interface names of
`DBusNames` are, is a valid attribute value and reads back as it is. -/
theorem plainName_value {s : String} (h : ∀ c ∈ s.toList, c.isAlphanum ∨ c = '_' ∨ c = '.') :
    isValueString s ∧ normalizeValue s = s :=
  ⟨List.all_eq_true.2 fun c hc => (isValueChar_of_interfaceNameChar (h c hc)).1,
    String.ext ((List.map_congr_left fun c hc =>
      (isValueChar_of_interfaceNameChar (h c hc)).2).trans (List.map_id _))⟩

section Normalize

variable {α : Type} (g : α → α)

theorem map_normalize_map (f : α → Nat × XmlToken) (h : ∀ x, (f x).2.normalize = (f (g x)).2)
    (xs : List α) : (xs.map f).map (fun l => l.2.normalize) = ((xs.map g).map f).map Prod.snd := by
  simp [h]

theorem map_normalize_flatMap (f : α → List (Nat × XmlToken))
    (h : ∀ x, (f x).map (fun l => l.2.normalize) = (f (g x)).map Prod.snd) (xs : List α) :
    (xs.flatMap f).map (fun l => l.2.normalize) = ((xs.map g).flatMap f).map Prod.snd := by
  simp only [List.map_flatMap, h, List.flatMap_map]

end Normalize

theorem normalize_methodLines (m : NihDBusMethod) :
    (methodLines m).map (fun l => l.2.normalize) =
      (methodLines (m.mapStrings normalizeValue)).map Prod.snd := by
  have := map_normalize_map (NihDBusArg.mapStrings normalizeValue) methodArgLine
    (fun ⟨_, _, dir⟩ => by cases dir <;> rfl) m.args
  simp only [methodLines, List.map_cons, List.map_append, this]
  rfl

theorem normalize_signalLines (s : NihDBusSignal) :
    (signalLines s).map (fun l => l.2.normalize) =
      (signalLines (s.mapStrings normalizeValue)).map Prod.snd := by
  have :=
    map_normalize_map (NihDBusArg.mapStrings normalizeValue) signalArgLine (fun _ => rfl) s.args
  simp only [signalLines, List.map_cons, List.map_append, this]
  rfl

theorem normalize_interfaceLines (iface : NihDBusInterface) :
    (interfaceLines iface).map (fun l => l.2.normalize) =
      (interfaceLines (iface.mapStrings normalizeValue)).map Prod.snd := by
  have hm := map_normalize_flatMap _ _ normalize_methodLines iface.methods
  have hs := map_normalize_flatMap _ _ normalize_signalLines iface.signals
  have hp := map_normalize_map (NihDBusProperty.mapStrings normalizeValue) propertyLine
    (fun ⟨_, _, access⟩ => by cases access <;> rfl) iface.properties
  simp only [interfaceLines, List.map_cons, List.map_append, hm, hs, hp]
  rfl

/-- **Lexing normalises exactly the object's strings.** -/
theorem normalize_introspectLines (names : DBusNames) (obj : NihDBusObject)
    (registered : List String) :
    (introspectLines names obj registered).map (fun l => l.2.normalize) =
      (introspectLines names (obj.mapStrings normalizeValue) (registered.map normalizeValue)).map
        Prod.snd := by
  have hi : (introspectableLines names).map (fun l => l.2.normalize) =
      (introspectableLines names).map Prod.snd := by
    simp only [introspectableLines, List.map_cons, List.map_nil, XmlToken.normalize,
      normalizeAttrs, (plainName_value names.introspectable_plain).2]
    rfl
  have hp : (propertiesLines names).map (fun l => l.2.normalize) =
      (propertiesLines names).map Prod.snd := by
    simp only [propertiesLines, List.map_cons, List.map_nil, XmlToken.normalize, normalizeAttrs,
      (plainName_value names.properties_plain).2]
    rfl
  have hf := map_normalize_flatMap _ _ normalize_interfaceLines obj.interfaces
  have hc := map_normalize_map normalizeValue childLine (fun _ => rfl) registered
  have hh :
      hasProperties (obj.mapStrings normalizeValue).interfaces = hasProperties obj.interfaces := by
    simp only [hasProperties, NihDBusObject.mapStrings, NihDBusInterface.mapStrings, List.any_map,
      Function.comp_def]
    congr 1
    funext i
    cases i.properties <;> rfl
  simp only [introspectLines, List.map_cons, List.map_append, hf, hc, hh, apply_ite, hi, hp,
    List.map_nil]
  rfl

/-! ## The document is well-formed -/

section Valid

theorem valid_methodArgLine {arg : NihDBusArg} (h : ∀ s ∈ arg.strings, isValueString s) :
    (methodArgLine arg).2.valid := by
  obtain ⟨_, _, dir⟩ := arg
  simp only [NihDBusArg.strings, List.mem_cons, List.mem_singleton, forall_eq_or_imp, forall_eq,
    List.not_mem_nil, false_imp_iff, implies_true, and_true] at h
  cases dir <;>
    simp +decide [methodArgLine, XmlToken.valid, validAttrs, isXmlName, isNameStart, isNameChar, h]

theorem valid_signalArgLine {arg : NihDBusArg} (h : ∀ s ∈ arg.strings, isValueString s) :
    (signalArgLine arg).2.valid := by
  simp only [NihDBusArg.strings, List.mem_cons, List.mem_singleton, forall_eq_or_imp, forall_eq,
    List.not_mem_nil, false_imp_iff, implies_true, and_true] at h
  simp [signalArgLine, XmlToken.valid, validAttrs, isXmlName, isNameStart, isNameChar, h]

theorem valid_methodLines {m : NihDBusMethod}
    (h : ∀ s ∈ m.name :: m.args.flatMap NihDBusArg.strings, isValueString s) :
    ∀ l ∈ methodLines m, l.2.valid := by
  simp only [List.mem_cons, List.mem_flatMap, forall_eq_or_imp, forall_exists_index, and_imp] at h
  simp only [methodLines, List.mem_cons, List.mem_append, List.mem_map, List.mem_singleton,
    forall_eq_or_imp, or_imp, forall_and, forall_exists_index, and_imp, forall_apply_eq_imp_iff₂,
    forall_eq, List.not_mem_nil, false_imp_iff, implies_true, and_true]
  exact ⟨⟨by simp [XmlToken.valid, validAttrs, isXmlName, isNameStart, isNameChar, h.1],
    fun a ha => valid_methodArgLine fun s hs => h.2 s a ha hs⟩, by decide⟩

theorem valid_signalLines {sig : NihDBusSignal}
    (h : ∀ s ∈ sig.name :: sig.args.flatMap NihDBusArg.strings, isValueString s) :
    ∀ l ∈ signalLines sig, l.2.valid := by
  simp only [List.mem_cons, List.mem_flatMap, forall_eq_or_imp, forall_exists_index, and_imp] at h
  simp only [signalLines, List.mem_cons, List.mem_append, List.mem_map, List.mem_singleton,
    forall_eq_or_imp, or_imp, forall_and, forall_exists_index, and_imp, forall_apply_eq_imp_iff₂,
    forall_eq, List.not_mem_nil, false_imp_iff, implies_true, and_true]
  exact ⟨⟨by simp [XmlToken.valid, validAttrs, isXmlName, isNameStart, isNameChar, h.1],
    fun a ha => valid_signalArgLine fun s hs => h.2 s a ha hs⟩, by decide⟩

theorem valid_propertyLine {prop : NihDBusProperty}
    (h : ∀ s ∈ [prop.name, prop.type], isValueString s) :
    (propertyLine prop).2.valid := by
  obtain ⟨_, _, access⟩ := prop
  simp only [List.mem_cons, List.mem_singleton, forall_eq_or_imp, forall_eq, List.not_mem_nil,
    false_imp_iff, implies_true, and_true] at h
  cases access <;>
    simp +decide [propertyLine, XmlToken.valid, validAttrs, isXmlName, isNameStart, isNameChar, h]

theorem valid_interfaceLines {iface : NihDBusInterface}
    (h : ∀ s ∈ iface.strings, isValueString s) :
    ∀ l ∈ interfaceLines iface, l.2.valid := by
  have hin : ∀ {s},
      s ∈ iface.methods.flatMap (fun m => m.name :: m.args.flatMap NihDBusArg.strings) ∨
      s ∈ iface.signals.flatMap (fun s => s.name :: s.args.flatMap NihDBusArg.strings) ∨
      s ∈ iface.properties.flatMap (fun p => [p.name, p.type]) → isValueString s := fun hs =>
    h _ (List.mem_cons_of_mem _ (by simpa [List.append_assoc] using hs))
  simp only [interfaceLines, List.mem_cons, List.mem_append, List.mem_flatMap, List.mem_map,
    List.mem_singleton, forall_eq_or_imp, or_imp, forall_and, forall_exists_index, and_imp,
    forall_apply_eq_imp_iff₂, forall_eq, List.not_mem_nil, false_imp_iff, implies_true, and_true]
  refine ⟨⟨⟨⟨?_, fun l m hm =>
      valid_methodLines (fun s hs => hin (.inl (List.mem_flatMap.2 ⟨m, hm, hs⟩))) l⟩,
    fun l sig hsig =>
      valid_signalLines
        (fun s hs => hin (.inr (.inl (List.mem_flatMap.2 ⟨sig, hsig, hs⟩)))) l⟩,
    fun p hp =>
      valid_propertyLine fun s hs => hin (.inr (.inr (List.mem_flatMap.2 ⟨p, hp, hs⟩)))⟩,
    by decide⟩
  simp [XmlToken.valid, validAttrs, isXmlName, isNameStart, isNameChar,
    h _ (List.mem_cons_self _ _)]

theorem valid_introspectLines (names : DBusNames) (obj : NihDBusObject) (registered : List String)
    (hobj : ∀ s ∈ obj.strings, isValueString s) (hreg : ∀ s ∈ registered, isValueString s) :
    ∀ l ∈ introspectLines names obj registered, l.2.valid := by
  have hI := (plainName_value names.introspectable_plain).1
  have hP := (plainName_value names.properties_plain).1
  simp only [introspectLines, List.mem_cons, List.mem_append, List.mem_flatMap, List.mem_map,
    List.mem_singleton, forall_eq_or_imp, or_imp, forall_and, forall_exists_index, and_imp,
    forall_apply_eq_imp_iff₂, forall_eq, List.not_mem_nil, false_imp_iff, implies_true, and_true]
  refine ⟨⟨⟨⟨⟨?_, ?_⟩, fun l i hi => valid_interfaceLines
    (fun s hs => hobj s (List.mem_cons_of_mem _ (List.mem_flatMap.2 ⟨i, hi, hs⟩))) l⟩, ?_⟩,
    fun c hc => ?_⟩, by decide⟩
  · simp [XmlToken.valid, validAttrs, isXmlName, isNameStart, isNameChar,
      hobj _ (List.mem_cons_self _ _)]
  · rw [introspectableLines_eq]
    refine valid_interfaceLines ?_
    rw [show (introspectableInterface names).strings =
      names.interfaceIntrospectable :: ["Introspect", "data", "s"] from rfl]
    exact List.forall_mem_cons.2 ⟨hI, by decide⟩
  · split
    · rw [propertiesLines_eq]
      refine valid_interfaceLines ?_
      rw [show (propertiesInterface names).strings = names.interfaceProperties ::
        ["Get", "interface_name", "s", "property_name", "s", "value", "v", "Set", "interface_name",
         "s", "property_name", "s", "value", "v", "GetAll", "interface_name", "s", "props",
         "a{sv}"] from rfl]
      exact List.forall_mem_cons.2 ⟨hP, by decide⟩
    · simp
  · simp [childLine, XmlToken.valid, validAttrs, isXmlName, isNameStart, isNameChar, hreg c hc]

end Valid

section Balance

theorem balanced_methodLines (m : NihDBusMethod) : Balanced ((methodLines m).map Prod.snd) := by
  simp only [methodLines, List.map_cons, List.map_append, List.map_map, List.cons_append]
  exact .elem rfl (balanced_map fun a _ => .empty (by cases a.dir <;> rfl) .nil) .nil

theorem balanced_signalLines (s : NihDBusSignal) : Balanced ((signalLines s).map Prod.snd) := by
  simp only [signalLines, List.map_cons, List.map_append, List.map_map, List.cons_append]
  exact .elem rfl (balanced_map fun _ _ => .empty rfl .nil) .nil

theorem balanced_interfaceLines (iface : NihDBusInterface) :
    Balanced ((interfaceLines iface).map Prod.snd) := by
  have hm : Balanced ((iface.methods.flatMap methodLines).map Prod.snd) := by
    rw [List.map_flatMap]
    exact balanced_flatMap fun m _ => balanced_methodLines m
  have hs : Balanced ((iface.signals.flatMap signalLines).map Prod.snd) := by
    rw [List.map_flatMap]
    exact balanced_flatMap fun s _ => balanced_signalLines s
  have hp : Balanced ((iface.properties.map propertyLine).map Prod.snd) := by
    rw [List.map_map]
    exact balanced_map fun p _ => .empty (by cases p.access <;> rfl) .nil
  simpa [interfaceLines, List.append_assoc] using
    @Balanced.elem "interface" [("name", iface.name)] _ [] rfl (hm.append (hs.append hp)) .nil

/-- The lines are a root element with balanced content. -/
theorem introspectLines_tokens (names : DBusNames) (obj : NihDBusObject)
    (registered : List String) :
    ∃ inner, (introspectLines names obj registered).map Prod.snd =
      .start "node" [("name", obj.path)] :: inner ++ [.stop "node"] ∧ Balanced inner := by
  have hi : Balanced ((introspectableLines names).map Prod.snd) :=
    introspectableLines_eq names ▸ balanced_interfaceLines _
  have hf : Balanced ((obj.interfaces.flatMap interfaceLines).map Prod.snd) := by
    rw [List.map_flatMap]
    exact balanced_flatMap fun i _ => balanced_interfaceLines i
  have hp : Balanced
      ((if hasProperties obj.interfaces then propertiesLines names else []).map Prod.snd) := by
    split
    · exact propertiesLines_eq names ▸ balanced_interfaceLines _
    · exact .nil
  have hc : Balanced ((registered.map childLine).map Prod.snd) := by
    rw [List.map_map]
    exact balanced_map fun _ _ => .empty rfl .nil
  exact ⟨_, by simp [introspectLines, List.append_assoc], ((hi.append hf).append hp).append hc⟩

end Balance

/-! ## Reading back the document -/

/-- **The document is well-formed and reads back** as the description of the
object, each of its strings as XML reads an attribute value, when they can
stand in one. -/
theorem introspectDocument_reads (names : DBusNames) (obj : NihDBusObject)
    (registered : List String) (hobj : ∀ s ∈ obj.strings, isValueString s)
    (hreg : ∀ s ∈ registered, isValueString s) :
    wellFormed (introspectDocument names obj registered) ∧
      readIntrospection (introspectDocument names obj registered) =
        some (introspectionOf names (obj.mapStrings normalizeValue)
          (registered.map normalizeValue)) := by
  obtain ⟨body, hgt, hcr, hdt⟩ := names.doctype_decl
  have hdata : (introspectDocument names obj registered).data =
      ((0, .decl body) :: introspectLines names obj registered).flatMap renderLine := by
    rw [introspectDocument_data, hdt]
    simp [renderLine, renderToken]
  have hvalid :
      ∀ l ∈ (0, XmlToken.decl body) :: introspectLines names obj registered, l.2.valid := by
    rintro l (_ | ⟨_, hl⟩)
    · simp only [XmlToken.valid, List.all_eq_true, Bool.and_eq_true, bne_iff_ne, ne_eq]
      exact fun c hc => ⟨fun e => hgt (e ▸ hc), fun e => hcr (e ▸ hc)⟩
    · exact valid_introspectLines names obj registered hobj hreg l hl
  have hlex : lex .text (normalizeEol (introspectDocument names obj registered).data) =
      some (.decl body :: (introspectLines names (obj.mapStrings normalizeValue)
        (registered.map normalizeValue)).map Prod.snd) := by
    rw [hdata, lex_renderLines hvalid, List.map_cons, normalize_introspectLines]
    rfl
  obtain ⟨inner, htoks, hb⟩ := introspectLines_tokens names (obj.mapStrings normalizeValue)
    (registered.map normalizeValue)
  have hread : readFrom .prolog (.decl body :: (introspectLines names
      (obj.mapStrings normalizeValue) (registered.map normalizeValue)).map Prod.snd) =
        some (.done (introspectionOf names (obj.mapStrings normalizeValue)
          (registered.map normalizeValue))) :=
    readFrom_introspectLines _ _ _
  constructor
  · simp only [wellFormed, hlex, htoks]
    exact decide_eq_true (docRun_document body rfl hb)
  · simp [readIntrospection, hlex, hread]

theorem NihDBusArg.mapStrings_eq_self {f : String → String} {arg : NihDBusArg}
    (h : ∀ s ∈ arg.strings, f s = s) : arg.mapStrings f = arg := by
  obtain ⟨n, t, d⟩ := arg
  simp only [NihDBusArg.strings, List.mem_cons, List.mem_singleton, forall_eq_or_imp, forall_eq,
    List.not_mem_nil, false_imp_iff, implies_true, and_true] at h
  simp [NihDBusArg.mapStrings, h]

theorem NihDBusInterface.mapStrings_eq_self {f : String → String} {iface : NihDBusInterface}
    (h : ∀ s ∈ iface.strings, f s = s) : iface.mapStrings f = iface := by
  obtain ⟨name, methods, signals, props⟩ := iface
  have hin : ∀ {s},
      s ∈ methods.flatMap (fun m => m.name :: m.args.flatMap NihDBusArg.strings) ∨
      s ∈ signals.flatMap (fun s => s.name :: s.args.flatMap NihDBusArg.strings) ∨
      s ∈ props.flatMap (fun p => [p.name, p.type]) → f s = s := fun hs =>
    h _ (List.mem_cons_of_mem _ (by simpa [List.append_assoc] using hs))
  have hargs : ∀ {args : List NihDBusArg},
      (∀ s ∈ args.flatMap NihDBusArg.strings, f s = s) →
      args.map (NihDBusArg.mapStrings f) = args := fun ha =>
    (List.map_congr_left fun a hm => NihDBusArg.mapStrings_eq_self fun s hs =>
      ha s (List.mem_flatMap.2 ⟨a, hm, hs⟩)).trans (List.map_id _)
  simp only [NihDBusInterface.mapStrings, NihDBusInterface.mk.injEq]
  refine ⟨h _ (List.mem_cons_self _ _), ?_, ?_, ?_⟩
  · refine (List.map_congr_left fun ⟨n, mar, args⟩ hm => ?_).trans (List.map_id _)
    have hm' : ∀ s ∈ n :: args.flatMap NihDBusArg.strings, f s = s := fun s hs =>
      hin (.inl (List.mem_flatMap.2 ⟨_, hm, hs⟩))
    simp only [NihDBusMethod.mapStrings, id, NihDBusMethod.mk.injEq, true_and]
    exact ⟨hm' _ (List.mem_cons_self _ _), hargs fun s hs => hm' s (List.mem_cons_of_mem _ hs)⟩
  · refine (List.map_congr_left fun ⟨n, args⟩ hm => ?_).trans (List.map_id _)
    have hm' : ∀ s ∈ n :: args.flatMap NihDBusArg.strings, f s = s := fun s hs =>
      hin (.inr (.inl (List.mem_flatMap.2 ⟨_, hm, hs⟩)))
    simp only [NihDBusSignal.mapStrings, id, NihDBusSignal.mk.injEq]
    exact ⟨hm' _ (List.mem_cons_self _ _), hargs fun s hs => hm' s (List.mem_cons_of_mem _ hs)⟩
  · refine (List.map_congr_left fun ⟨n, t, a⟩ hm => ?_).trans (List.map_id _)
    have hm' : ∀ s ∈ [n, t], f s = s := fun s hs =>
      hin (.inr (.inr (List.mem_flatMap.2 ⟨_, hm, hs⟩)))
    simp [NihDBusProperty.mapStrings, hm' n (by simp), hm' t (by simp)]

theorem NihDBusObject.mapStrings_eq_self {f : String → String} {obj : NihDBusObject}
    (h : ∀ s ∈ obj.strings, f s = s) : obj.mapStrings f = obj := by
  obtain ⟨path, conn, ifaces⟩ := obj
  simp only [NihDBusObject.mapStrings, NihDBusObject.mk.injEq, true_and]
  exact ⟨h _ (List.mem_cons_self _ _), (List.map_congr_left fun i hi =>
    NihDBusInterface.mapStrings_eq_self fun s hs =>
      h s (List.mem_cons_of_mem _ (List.mem_flatMap.2 ⟨i, hi, hs⟩))).trans (List.map_id _)⟩

/-- Without tabs and line feeds, a string reads as written. -/
theorem normalizeValue_eq_self {v : String} (h : '\t' ∉ v.data ∧ '\n' ∉ v.data) :
    normalizeValue v = v :=
  String.ext ((List.map_congr_left fun c hc => by
    have : c ≠ '\t' ∧ c ≠ '\n' := ⟨fun e => h.1 (e ▸ hc), fun e => h.2 (e ▸ hc)⟩
    by_cases hs : c = ' ' <;>
      simp [normalizeValueChar, isXmlSpace, this.1, this.2, hs]).trans (List.map_id _))

/-! ## What a client reads -/

/-- **What a client reads from the reply.** When the object's strings and the
children's names can stand in an attribute value as written, the reply
`nih_dbus_object_introspect` has sent when it returns `HANDLED` is a
well-formed document, and it reads back as the description of the object
with each string as XML reads an attribute value, its tabs and line feeds
turned into spaces; when no string holds one, exactly as the object is. -/
theorem introspect_reply_reads_back (names : DBusNames) (fails : Nat → Bool)
    (registered : List String) (obj : NihDBusObject)
    (hobj : ∀ s ∈ obj.strings, isValueString s) (hreg : ∀ s ∈ registered, isValueString s)
    (h : (nihDbusObjectIntrospect names fails registered obj).1 = .handled) :
    ∃ doc, (nihDbusObjectIntrospect names fails registered obj).2.sent = [some doc] ∧
      wellFormed doc ∧
      readIntrospection doc =
        some (introspectionOf names (obj.mapStrings normalizeValue) (registered.map normalizeValue)) ∧
      ((∀ s ∈ obj.strings ++ registered, '\t' ∉ s.data ∧ '\n' ∉ s.data) →
        readIntrospection doc = some (introspectionOf names obj registered)) := by
  have hsent : (nihDbusObjectIntrospect names fails registered obj).2.sent =
      [some (introspectDocument names obj registered)] := by
    rcases (nihDbusObjectIntrospect_spec names fails registered obj).1 with
      ⟨-, hs⟩ | ⟨hm, -⟩
    · exact hs
    · rw [h] at hm
      cases hm
  obtain ⟨hwf, hread⟩ := introspectDocument_reads names obj registered hobj hreg
  refine ⟨_, hsent, hwf, hread, fun hplain => ?_⟩
  rw [hread, NihDBusObject.mapStrings_eq_self fun s hs =>
      normalizeValue_eq_self (hplain s (List.mem_append_left _ hs)),
    (List.map_congr_left fun s hs => normalizeValue_eq_self
      (hplain s (List.mem_append_right _ hs))).trans (List.map_id _)]

theorem introspect_reply_reads_back_one_method :
    ∃ doc, (nihDbusObjectIntrospect
        ⟨"a.I", "a.P", "a.L", "/a/L", "<!x>\n", by decide, by decide, ⟨['x'], by decide⟩⟩
        (fun _ => false) ["c"] ⟨"/o", 0, [⟨"i", [⟨"m", some 0, [⟨"x", "s", .argIn⟩]⟩], [], []⟩]⟩).2.sent =
        [some doc] ∧ wellFormed doc ∧
      readIntrospection doc =
        some (introspectionOf ⟨"a.I", "a.P", "a.L", "/a/L", "<!x>\n", by decide, by decide, ⟨['x'], by decide⟩⟩
          (NihDBusObject.mapStrings normalizeValue
            ⟨"/o", 0, [⟨"i", [⟨"m", some 0, [⟨"x", "s", .argIn⟩]⟩], [], []⟩]⟩) (["c"].map normalizeValue)) ∧
      ((∀ s ∈ NihDBusObject.strings ⟨"/o", 0, [⟨"i", [⟨"m", some 0, [⟨"x", "s", .argIn⟩]⟩], [], []⟩]⟩ ++ ["c"],
          '\t' ∉ s.data ∧ '\n' ∉ s.data) →
        readIntrospection doc = some (introspectionOf
          ⟨"a.I", "a.P", "a.L", "/a/L", "<!x>\n", by decide, by decide, ⟨['x'], by decide⟩⟩
          ⟨"/o", 0, [⟨"i", [⟨"m", some 0, [⟨"x", "s", .argIn⟩]⟩], [], []⟩]⟩ ["c"])) :=
  introspect_reply_reads_back _ _ _ _ (by decide) (by decide) rfl

/-- **A tab in a name reads as a space.** `dbus.c` writes the interface name
`a<TAB>b` into an attribute value as it is; the reply is well-formed, but a
reader, normalising the value as XML requires, sees `a b`, so the document
does not describe the object. -/
theorem introspect_tab_reads_as_space :
    (nihDbusObjectIntrospect ⟨"a.I", "a.P", "a.L", "/a/L", "<!x>\n", by decide, by decide, ⟨['x'], by decide⟩⟩ (fun _ => false) [] ⟨"/", 0, [⟨"a\tb", [], [], []⟩]⟩).1 = .handled ∧
      ∃ doc, (nihDbusObjectIntrospect ⟨"a.I", "a.P", "a.L", "/a/L", "<!x>\n", by decide, by decide, ⟨['x'], by decide⟩⟩ (fun _ => false) []
          ⟨"/", 0, [⟨"a\tb", [], [], []⟩]⟩).2.sent = [some doc] ∧ wellFormed doc ∧
        readIntrospection doc ≠ some (introspectionOf ⟨"a.I", "a.P", "a.L", "/a/L", "<!x>\n", by decide, by decide, ⟨['x'], by decide⟩⟩ ⟨"/", 0, [⟨"a\tb", [], [], []⟩]⟩ []) := by
  have hsent := (nihDbusObjectIntrospect_spec
    ⟨"a.I", "a.P", "a.L", "/a/L", "<!x>\n", by decide, by decide, ⟨['x'], by decide⟩⟩
    (fun _ => false) [] ⟨"/", 0, [⟨"a\tb", [], [], []⟩]⟩).1
  obtain ⟨hwf, hread⟩ := introspectDocument_reads
    ⟨"a.I", "a.P", "a.L", "/a/L", "<!x>\n", by decide, by decide, ⟨['x'], by decide⟩⟩
    ⟨"/", 0, [⟨"a\tb", [], [], []⟩]⟩ []
    (by decide) (by simp)
  rcases hsent with ⟨hh, hs⟩ | ⟨hn, -⟩
  · refine ⟨hh, _, hs, hwf, ?_⟩
    rw [hread]
    decide
  · exact absurd hn (by decide)

end NihDBus
