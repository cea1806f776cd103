import Mathlib

/-!
# Messages and the library's side of the contract (dbus.c)

Everything `dbus.c` reads from a D-Bus message, and the results its
callbacks hand back to libdbus.

- `DBusNames`: the protocol constants `dbus.c` takes from the D-Bus headers
  (`DBUS_INTERFACE_INTROSPECTABLE`, `DBUS_INTERFACE_PROPERTIES`,
  `DBUS_INTERFACE_LOCAL`, `DBUS_PATH_LOCAL`,
  `DBUS_INTROSPECT_1_0_XML_DOCTYPE_DECL_NODE`). The headers are not part of
  the repository, so the development is stated for any values of them of the
  shape the headers give them.
- `DBusMessage`: a message header as libdbus accepts it. Its fields carry the
  header rules of the protocol that the code relies on: a signal always names
  an interface and a member, and a method call always names a member.
- `dbusMessageIsMethodCall`, `dbusMessageIsSignal`, `dbusMessageHasPath`: the
  libdbus tests, with libdbus's rule that a message without an interface field
  matches every interface.
-/

namespace NihDBus

/-- The protocol constants of the D-Bus headers that `dbus.c` uses. The two
interface names it prints into XML are D-Bus interface names: letters,
digits, `_` and `.` only. The document type declaration is one markup
declaration `<!…>` on lines of its own. -/
structure DBusNames where
  interfaceIntrospectable : String
  interfaceProperties : String
  interfaceLocal : String
  pathLocal : String
  introspectDoctype : String
  introspectable_plain :
    ∀ c ∈ interfaceIntrospectable.toList, c.isAlphanum ∨ c = '_' ∨ c = '.'
  properties_plain : ∀ c ∈ interfaceProperties.toList, c.isAlphanum ∨ c = '_' ∨ c = '.'
  doctype_decl : ∃ body : List Char, '>' ∉ body ∧ '\r' ∉ body ∧
    introspectDoctype.data = '<' :: '!' :: body ++ ['>', '\n']

/-- The four message types of the protocol. -/
inductive DBusMessageType
  | methodCall
  | methodReturn
  | error
  | signal
  deriving DecidableEq, Repr

/-- A message header. libdbus refuses a signal without an interface or a
member and a method call without a member, so no such message reaches a
filter or an object. -/
structure DBusMessage where
  type : DBusMessageType
  path : Option String
  interface : Option String
  member : Option String
  call_has_member : type = .methodCall → member.isSome
  signal_has_interface : type = .signal → interface.isSome ∧ member.isSome

/-- `DBusHandlerResult`: what a filter or an object callback tells libdbus. -/
inductive DBusHandlerResult
  | handled
  | notYetHandled
  | needMemory
  deriving DecidableEq, Repr

/-- libdbus's test behind `dbus_message_is_method_call` and
`dbus_message_is_signal`: the type and the member must match, and the
interface must match unless the message has none. -/
def hasTypeInterfaceMember (m : DBusMessage) (type : DBusMessageType)
    (iface member : String) : Bool :=
  m.type = type ∧ m.member = some member ∧ (m.interface = none ∨ m.interface = some iface)

/-- `dbus_message_is_method_call`. -/
def dbusMessageIsMethodCall (m : DBusMessage) (iface method : String) : Bool :=
  hasTypeInterfaceMember m .methodCall iface method

/-- `dbus_message_is_signal`. -/
def dbusMessageIsSignal (m : DBusMessage) (iface name : String) : Bool :=
  hasTypeInterfaceMember m .signal iface name

/-- `dbus_message_has_path`. -/
def dbusMessageHasPath (m : DBusMessage) (path : String) : Bool :=
  m.path = some path

/-- Because a signal always carries an interface, `dbus_message_is_signal`
is an exact match on type, interface and member. -/
theorem dbusMessageIsSignal_iff (m : DBusMessage) (iface name : String) :
    dbusMessageIsSignal m iface name = true ↔
      m.type = .signal ∧ m.interface = some iface ∧ m.member = some name := by
  simp only [dbusMessageIsSignal, hasTypeInterfaceMember, decide_eq_true_eq]
  constructor
  · rintro ⟨ht, hm, hi | hi⟩
    · have := (m.signal_has_interface ht).1
      simp [hi] at this
    · exact ⟨ht, hi, hm⟩
  · rintro ⟨ht, hi, hm⟩
    exact ⟨ht, hm, .inr hi⟩

end NihDBus
