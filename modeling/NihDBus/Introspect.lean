import Mathlib
import NihDBus.Message
import NihDBus.Object

/-!
# Answering `Introspect` (dbus.c:1051–1230)

`nih_dbus_object_introspect` builds an XML description of an object by
appending to a string, lists the object's children with
`dbus_connection_list_registered`, and sends the string in a method return.
Every library call it makes may fail; each failure jumps to `error`, which
releases what the function holds and returns `NEED_MEMORY`.

- The pieces (`nodePiece`, `introspectablePiece`, `interfacePieces`, …) are
  the function's format strings with their `%s` filled in; the loops over the
  interface table appear as the order of the pieces (`introspectPieces`).
- `IntrospectFrame` holds the function's locals `xml`, `children` and
  `reply`, what it holds (`held`: the string, the array, a reference to the
  reply), the replies sent on the connection, and the number of fallible
  calls made. `fails k` says whether the `k`-th fallible call fails, so every
  pattern of failures is one `fails`. `badRelease` is set if the function
  ever releases something it does not hold.
- `introspectBody` is the function up to its `return`, in the error monad
  whose error value is the frame at the `goto error`; `introspectError` is
  the code at `error`.

## Results

- `Triple` is a Hoare triple for these steps, with a postcondition for
  normal completion and one for a jump to `error`; `introspectBody_triple`
  chains the triples of the single calls.
- `nihDbusObjectIntrospect_spec`: the function returns `HANDLED` having sent
  exactly the document `introspectDocument`, or `NEED_MEMORY` having sent
  nothing, and in both cases has released everything it acquired, once.
-/

namespace NihDBus

/-! ## The document -/

/-- `"<node name=\"%s\">\n"`. -/
def nodePiece (path : String) : String := "<node name=\"" ++ path ++ "\">\n"

/-- The Introspectable interface, with `DBUS_INTERFACE_INTROSPECTABLE`. -/
def introspectablePiece (names : DBusNames) : String :=
  "  <interface name=\"" ++ names.interfaceIntrospectable ++ "\">\n" ++
  "    <method name=\"Introspect\">\n" ++
  "      <arg name=\"data\" type=\"s\" direction=\"out\"/>\n" ++
  "    </method>\n" ++
  "  </interface>\n"

/-- `"  <interface name=\"%s\">\n"`. -/
def interfacePiece (name : String) : String := "  <interface name=\"" ++ name ++ "\">\n"

/-- `"    <method name=\"%s\">\n"`. -/
def methodPiece (name : String) : String := "    <method name=\"" ++ name ++ "\">\n"

/-- A method's argument, with its direction. -/
def methodArgPiece (arg : NihDBusArg) : String :=
  "      <arg name=\"" ++ arg.name ++ "\" type=\"" ++ arg.type ++ "\"" ++
  " direction=\"" ++ (if arg.dir = .argIn then "in" else "out") ++ "\"/>\n"

/-- `"    </method>\n"`. -/
def methodEndPiece : String := "    </method>\n"

/-- `"    <signal name=\"%s\">\n"`. -/
def signalPiece (name : String) : String := "    <signal name=\"" ++ name ++ "\">\n"

/-- A signal's argument. -/
def signalArgPiece (arg : NihDBusArg) : String :=
  "      <arg name=\"" ++ arg.name ++ "\" type=\"" ++ arg.type ++ "\"/>\n"

/-- `"    </signal>\n"`. -/
def signalEndPiece : String := "    </signal>\n"

/-- A property, with its access. -/
def propertyPiece (prop : NihDBusProperty) : String :=
  "    <property name=\"" ++ prop.name ++ "\" type=\"" ++ prop.type ++ "\" " ++
  "access=\"" ++
    (if prop.access = .read then "read"
     else if prop.access = .write then "write" else "readwrite") ++
  "\"/>\n"

/-- `"  </interface>\n"`. -/
def interfaceEndPiece : String := "  </interface>\n"

/-- The Properties interface, with `DBUS_INTERFACE_PROPERTIES`. -/
def propertiesPiece (names : DBusNames) : String :=
  "  <interface name=\"" ++ names.interfaceProperties ++ "\">\n" ++
  "    <method name=\"Get\">\n" ++
  "      <arg name=\"interface_name\" type=\"s\" direction=\"in\"/>\n" ++
  "      <arg name=\"property_name\" type=\"s\" direction=\"in\"/>\n" ++
  "      <arg name=\"value\" type=\"v\" direction=\"out\"/>\n" ++
  "    </method>\n" ++
  "    <method name=\"Set\">\n" ++
  "      <arg name=\"interface_name\" type=\"s\" direction=\"in\"/>\n" ++
  "      <arg name=\"property_name\" type=\"s\" direction=\"in\"/>\n" ++
  "      <arg name=\"value\" type=\"v\" direction=\"in\"/>\n" ++
  "    </method>\n" ++
  "    <method name=\"GetAll\">\n" ++
  "      <arg name=\"interface_name\" type=\"s\" direction=\"in\"/>\n" ++
  "      <arg name=\"props\" type=\"a{sv}\" direction=\"out\"/>\n" ++
  "    </method>\n" ++
  "  </interface>\n"

/-- `"  <node name=\"%s\"/>\n"`, for a child. -/
def childPiece (name : String) : String := "  <node name=\"" ++ name ++ "\"/>\n"

/-- `"</node>\n"`. -/
def nodeEndPiece : String := "</node>\n"

/-- What the loop over one interface appends, in order: the interface, each
method with its arguments, each signal with its arguments, each property. -/
def interfacePieces (iface : NihDBusInterface) : List String :=
  [interfacePiece iface.name] ++
  iface.methods.flatMap (fun m =>
    [methodPiece m.name] ++ m.args.map methodArgPiece ++ [methodEndPiece]) ++
  iface.signals.flatMap (fun s =>
    [signalPiece s.name] ++ s.args.map signalArgPiece ++ [signalEndPiece]) ++
  iface.properties.map propertyPiece ++
  [interfaceEndPiece]

/-- `have_props` once the interface loop is done: some interface has a property. -/
def hasProperties (ifaces : List NihDBusInterface) : Bool :=
  ifaces.any fun i => !i.properties.isEmpty

/-- What is appended before the children are listed. -/
def introspectPieces (names : DBusNames) (obj : NihDBusObject) : List String :=
  [nodePiece obj.path, introspectablePiece names] ++ obj.interfaces.flatMap interfacePieces ++
    (if hasProperties obj.interfaces then [propertiesPiece names] else [])

/-- The document the function sends, for the children `registered`. -/
def introspectDocument (names : DBusNames) (obj : NihDBusObject) (registered : List String) :
    String :=
  names.introspectDoctype ++
    String.join (introspectPieces names obj ++ registered.map childPiece ++ [nodeEndPiece])

/-! ## The function -/

/-- What the function acquires and must release. -/
inductive IntrospectResource
  | xml
  | children
  | reply
  deriving DecidableEq, Repr

/-- The function's locals and what it holds. `reply` is `none` for `NULL`, and
otherwise the string argument appended to the reply, if any. `sent` lists
the string argument of each reply sent. -/
structure IntrospectFrame where
  xml : Option String
  children : Option (List String)
  reply : Option (Option String)
  held : List IntrospectResource
  badRelease : Bool
  sent : List (Option String)
  calls : Nat
  deriving DecidableEq, Repr

/-- The frame on entry: `xml`, `children` and `reply` are `NULL`. -/
def IntrospectFrame.init : IntrospectFrame := ⟨none, none, none, [], false, [], 0⟩

/-- A fallible library call: the `calls`-th call fails iff `fails` says so;
if it does not, it has the effect `ok`. -/
def IntrospectFrame.call (fails : Nat → Bool) (fr : IntrospectFrame)
    (ok : IntrospectFrame → IntrospectFrame) : Except IntrospectFrame IntrospectFrame :=
  if fails fr.calls then .error { fr with calls := fr.calls + 1 }
  else .ok (ok { fr with calls := fr.calls + 1 })

/-- Acquiring a resource. -/
def IntrospectFrame.acquire (r : IntrospectResource) (fr : IntrospectFrame) : IntrospectFrame :=
  { fr with held := fr.held ++ [r] }

/-- Releasing a resource; releasing one not held is recorded. -/
def IntrospectFrame.release (r : IntrospectResource) (fr : IntrospectFrame) : IntrospectFrame :=
  if r ∈ fr.held then { fr with held := fr.held.erase r } else { fr with badRelease := true }

/-- `xml = nih_strdup (NULL, s)`. -/
def nihStrdup (fails : Nat → Bool) (s : String) (fr : IntrospectFrame) :
    Except IntrospectFrame IntrospectFrame :=
  fr.call fails fun fr => ({ fr with xml := some s }).acquire .xml

/-- `nih_strcat (&xml, NULL, s)` and `nih_strcat_sprintf`: on failure the
string is left as it was. -/
def nihStrcat (fails : Nat → Bool) (s : String) (fr : IntrospectFrame) :
    Except IntrospectFrame IntrospectFrame :=
  fr.call fails fun fr => { fr with xml := fr.xml.map (· ++ s) }

/-- The appends of a loop, stopping at the first failure. -/
def nihStrcatAll (fails : Nat → Bool) : List String → IntrospectFrame →
    Except IntrospectFrame IntrospectFrame
  | [], fr => .ok fr
  | s :: ss, fr => nihStrcat fails s fr >>= nihStrcatAll fails ss

/-- `dbus_connection_list_registered (conn, object->path, &children)`, which
gives the array `registered`. -/
def dbusConnectionListRegistered (fails : Nat → Bool) (registered : List String)
    (fr : IntrospectFrame) : Except IntrospectFrame IntrospectFrame :=
  fr.call fails fun fr => ({ fr with children := some registered }).acquire .children

/-- `dbus_free_string_array (children)`. -/
def dbusFreeStringArray (fr : IntrospectFrame) : IntrospectFrame := fr.release .children

/-- `reply = dbus_message_new_method_return (message)`. -/
def dbusMessageNewMethodReturn (fails : Nat → Bool) (fr : IntrospectFrame) :
    Except IntrospectFrame IntrospectFrame :=
  fr.call fails fun fr => ({ fr with reply := some none }).acquire .reply

/-- `dbus_message_append_args (reply, DBUS_TYPE_STRING, &xml, …)`. -/
def dbusMessageAppendArgs (fails : Nat → Bool) (fr : IntrospectFrame) :
    Except IntrospectFrame IntrospectFrame :=
  fr.call fails fun fr => { fr with reply := fr.reply.map fun _ => fr.xml }

/-- `dbus_connection_send (conn, reply, NULL)`. -/
def dbusConnectionSend (fails : Nat → Bool) (fr : IntrospectFrame) :
    Except IntrospectFrame IntrospectFrame :=
  fr.call fails fun fr => { fr with sent := fr.sent ++ fr.reply.toList }

/-- `dbus_message_unref (reply)`. -/
def dbusMessageUnref (fr : IntrospectFrame) : IntrospectFrame := fr.release .reply

/-- `nih_free (xml)`. -/
def nihFree (fr : IntrospectFrame) : IntrospectFrame := fr.release .xml

/-- The function from its first call to `return DBUS_HANDLER_RESULT_HANDLED`. -/
def introspectBody (names : DBusNames) (fails : Nat → Bool) (registered : List String)
    (obj : NihDBusObject) (fr : IntrospectFrame) : Except IntrospectFrame IntrospectFrame := do
  let fr ← nihStrdup fails names.introspectDoctype fr
  let fr ← nihStrcatAll fails (introspectPieces names obj) fr
  let fr ← dbusConnectionListRegistered fails registered fr
  let fr ← nihStrcatAll fails (registered.map childPiece ++ [nodeEndPiece]) fr
  let fr := { dbusFreeStringArray fr with children := none }
  let fr ← dbusMessageNewMethodReturn fails fr
  let fr ← dbusMessageAppendArgs fails fr
  let fr ← dbusConnectionSend fails fr
  pure (nihFree (dbusMessageUnref fr))

/-- The code at `error`. -/
def introspectError (fr : IntrospectFrame) : IntrospectFrame :=
  let fr := if fr.reply.isSome then dbusMessageUnref fr else fr
  let fr := if fr.children.isSome then dbusFreeStringArray fr else fr
  if fr.xml.isSome then nihFree fr else fr

/-- `nih_dbus_object_introspect`, for the children `registered` the
connection lists under the object. -/
def nihDbusObjectIntrospect (names : DBusNames) (fails : Nat → Bool) (registered : List String)
    (obj : NihDBusObject) : DBusHandlerResult × IntrospectFrame :=
  match introspectBody names fails registered obj .init with
  | .ok fr => (.handled, fr)
  | .error fr => (.needMemory, introspectError fr)

/-! ## Triples -/

/-- A Hoare triple for a step of the function: from a frame satisfying `P`,
the step either completes in a frame satisfying `Q` or jumps to `error` in
one satisfying `E`. -/
def Triple (P : IntrospectFrame → Prop)
    (c : IntrospectFrame → Except IntrospectFrame IntrospectFrame)
    (Q E : IntrospectFrame → Prop) : Prop :=
  ∀ fr, P fr → match c fr with
    | .ok fr' => Q fr'
    | .error fr' => E fr'

section Triples

variable {P Q R E : IntrospectFrame → Prop}

theorem Triple.bind {c k : IntrospectFrame → Except IntrospectFrame IntrospectFrame}
    (h₁ : Triple P c Q E) (h₂ : Triple Q k R E) : Triple P (fun fr => c fr >>= k) R E := by
  intro fr hp
  have h := h₁ fr hp
  dsimp only
  revert h
  cases c fr with
  | ok fr' => exact h₂ fr'
  | error fr' => exact id

theorem Triple.pure {f : IntrospectFrame → IntrospectFrame} (hf : ∀ fr, P fr → Q (f fr)) :
    Triple P (fun fr => pure (f fr)) Q E :=
  fun fr hp => hf fr hp

/-- A fallible call: if its effect leads from `P` to `Q`, and a failure, which
changes only the count of calls, keeps `E`. -/
theorem Triple.call {fails : Nat → Bool} {ok : IntrospectFrame → IntrospectFrame}
    (hok : ∀ fr, P fr → Q (ok { fr with calls := fr.calls + 1 }))
    (herr : ∀ fr, P fr → E { fr with calls := fr.calls + 1 }) :
    Triple P (fun fr => fr.call fails ok) Q E := by
  intro fr hp
  dsimp only [IntrospectFrame.call]
  cases fails fr.calls
  · exact hok fr hp
  · exact herr fr hp

end Triples

/-! ## What the function holds -/

/-- What the locals say the function holds, in the order it acquires them. -/
def IntrospectFrame.holds (fr : IntrospectFrame) : List IntrospectResource :=
  (if fr.xml.isSome then [.xml] else []) ++ (if fr.children.isSome then [.children] else []) ++
    (if fr.reply.isSome then [.reply] else [])

/-- A frame the code at `error` can clean up: the function holds exactly what
its locals point to, has released nothing it did not hold, and has sent
nothing. -/
def IntrospectFrame.Clean (fr : IntrospectFrame) : Prop :=
  fr.held = fr.holds ∧ fr.badRelease = false ∧ fr.sent = []

/-- Building the document: `xml` is `x`, `children` is `ch`, no reply yet. -/
def IntrospectFrame.Building (x : String) (ch : Option (List String)) (fr : IntrospectFrame) :
    Prop :=
  fr.Clean ∧ fr.xml = some x ∧ fr.children = ch ∧ fr.reply = none

/-- Replying: the document is `x`, the array is freed, and the reply carries `r`. -/
def IntrospectFrame.Replying (x : String) (r : Option String) (fr : IntrospectFrame) : Prop :=
  fr.Clean ∧ fr.xml = some x ∧ fr.children = none ∧ fr.reply = some r

theorem nihStrdup_triple (fails : Nat → Bool) (s : String) :
    Triple (fun fr => fr.Clean ∧ fr.xml = none ∧ fr.children = none ∧ fr.reply = none)
      (nihStrdup fails s) (IntrospectFrame.Building s none) IntrospectFrame.Clean :=
  Triple.call
    (fun fr ⟨⟨hh, hb, hs⟩, hx, hc, hr⟩ => by
      simp_all [IntrospectFrame.Building, IntrospectFrame.Clean, IntrospectFrame.holds,
        IntrospectFrame.acquire])
    (fun fr h => h.1)

theorem nihStrcat_triple (fails : Nat → Bool) (s x : String) (ch : Option (List String)) :
    Triple (IntrospectFrame.Building x ch) (nihStrcat fails s)
      (IntrospectFrame.Building (x ++ s) ch) IntrospectFrame.Clean :=
  Triple.call
    (fun fr ⟨⟨hh, hb, hs⟩, hx, hc, hr⟩ => by
      simp_all [IntrospectFrame.Building, IntrospectFrame.Clean, IntrospectFrame.holds])
    (fun fr h => h.1)

theorem nihStrcatAll_triple (fails : Nat → Bool) (ch : Option (List String)) :
    ∀ (ss : List String) (x : String),
      Triple (IntrospectFrame.Building x ch) (nihStrcatAll fails ss)
        (IntrospectFrame.Building (x ++ String.join ss) ch) IntrospectFrame.Clean
  | [], x => fun fr h => by simpa [nihStrcatAll, String.join] using h
  | s :: ss, x => by
    have := (nihStrcat_triple fails s x ch).bind (nihStrcatAll_triple fails ch ss (x ++ s))
    rwa [show x ++ s ++ String.join ss = x ++ String.join (s :: ss) from
      String.ext (by simp [List.append_assoc])] at this

theorem dbusConnectionListRegistered_triple (fails : Nat → Bool) (registered : List String)
    (x : String) :
    Triple (IntrospectFrame.Building x none) (dbusConnectionListRegistered fails registered)
      (IntrospectFrame.Building x (some registered)) IntrospectFrame.Clean :=
  Triple.call
    (fun fr ⟨⟨hh, hb, hs⟩, hx, hc, hr⟩ => by
      simp_all [IntrospectFrame.Building, IntrospectFrame.Clean, IntrospectFrame.holds,
        IntrospectFrame.acquire])
    (fun fr h => h.1)

/-- `dbus_free_string_array (children); children = NULL;` keeps the frame
clean. -/
theorem building_freeStringArray {x : String} {registered : List String} {fr : IntrospectFrame}
    (h : fr.Building x (some registered)) :
    ({ dbusFreeStringArray fr with children := none } : IntrospectFrame).Building x none := by
  obtain ⟨⟨hh, hb, hs⟩, hx, hc, hr⟩ := h
  simp_all [IntrospectFrame.Building, IntrospectFrame.Clean, IntrospectFrame.holds,
    dbusFreeStringArray, IntrospectFrame.release]

theorem dbusMessageNewMethodReturn_triple (fails : Nat → Bool) (x : String) :
    Triple (IntrospectFrame.Building x none) (dbusMessageNewMethodReturn fails)
      (IntrospectFrame.Replying x none) IntrospectFrame.Clean :=
  Triple.call
    (fun fr ⟨⟨hh, hb, hs⟩, hx, hc, hr⟩ => by
      simp_all [IntrospectFrame.Replying, IntrospectFrame.Clean, IntrospectFrame.holds,
        IntrospectFrame.acquire])
    (fun fr h => h.1)

theorem dbusMessageAppendArgs_triple (fails : Nat → Bool) (x : String) :
    Triple (IntrospectFrame.Replying x none) (dbusMessageAppendArgs fails)
      (IntrospectFrame.Replying x (some x)) IntrospectFrame.Clean :=
  Triple.call
    (fun fr ⟨⟨hh, hb, hs⟩, hx, hc, hr⟩ => by
      simp_all [IntrospectFrame.Replying, IntrospectFrame.Clean, IntrospectFrame.holds])
    (fun fr h => h.1)

theorem dbusConnectionSend_triple (fails : Nat → Bool) (x : String) :
    Triple (IntrospectFrame.Replying x (some x)) (dbusConnectionSend fails)
      (fun fr => fr.held = [.xml, .reply] ∧ fr.badRelease = false ∧ fr.sent = [some x])
      IntrospectFrame.Clean :=
  Triple.call
    (fun fr ⟨⟨hh, hb, hs⟩, hx, hc, hr⟩ => by
      simp_all [IntrospectFrame.Clean, IntrospectFrame.holds])
    (fun fr h => h.1)

/-- **The function up to its `return`**: from entry, it either reaches
`return DBUS_HANDLER_RESULT_HANDLED` having released all it held and sent
the document once, or jumps to `error` in a clean frame. -/
theorem introspectBody_triple (names : DBusNames) (fails : Nat → Bool) (registered : List String)
    (obj : NihDBusObject) :
    Triple (· = .init) (introspectBody names fails registered obj)
      (fun fr => fr.held = [] ∧ fr.badRelease = false ∧
        fr.sent = [some (introspectDocument names obj registered)])
      IntrospectFrame.Clean := by
  have hdoc : names.introspectDoctype ++ String.join (introspectPieces names obj) ++
      String.join (registered.map childPiece ++ [nodeEndPiece]) =
        introspectDocument names obj registered :=
    String.ext (by simp [introspectDocument, List.append_assoc])
  refine Triple.bind (Q := IntrospectFrame.Building names.introspectDoctype none)
    (fun fr h => nihStrdup_triple fails _ fr
      (by subst h; exact ⟨⟨rfl, rfl, rfl⟩, rfl, rfl, rfl⟩)) ?_
  refine (nihStrcatAll_triple fails none _ _).bind ?_
  refine (dbusConnectionListRegistered_triple fails registered _).bind ?_
  refine (nihStrcatAll_triple fails _ _ _).bind ?_
  intro fr h
  dsimp only
  refine ((dbusMessageNewMethodReturn_triple fails _).bind
    ((dbusMessageAppendArgs_triple fails _).bind ((dbusConnectionSend_triple fails _).bind
      (Triple.pure fun fr ⟨hh, hb, hs⟩ => ?_)))) _ (building_freeStringArray h)
  rw [hdoc] at hs
  simp [hh, hb, hs, nihFree, dbusMessageUnref, IntrospectFrame.release]

/-- The code at `error` releases everything a clean frame holds, once. -/
theorem introspectError_clean {fr : IntrospectFrame} (h : fr.Clean) :
    (introspectError fr).held = [] ∧ (introspectError fr).badRelease = false ∧
      (introspectError fr).sent = [] := by
  obtain ⟨hh, hb, hs⟩ := h
  obtain ⟨_ | x, _ | ch, _ | r, held, bad, sent, calls⟩ := fr <;>
    simp_all [introspectError, IntrospectFrame.holds, dbusMessageUnref, dbusFreeStringArray,
      nihFree, IntrospectFrame.release]

/-- **What `nih_dbus_object_introspect` does, under any failures**: it returns
`HANDLED` having sent the document once, or `NEED_MEMORY` having sent
nothing; either way it has released the string, the array and the reply it
acquired, each once. -/
theorem nihDbusObjectIntrospect_spec (names : DBusNames) (fails : Nat → Bool)
    (registered : List String) (obj : NihDBusObject) :
    let r := nihDbusObjectIntrospect names fails registered obj
    (r.1 = .handled ∧ r.2.sent = [some (introspectDocument names obj registered)] ∨
      r.1 = .needMemory ∧ r.2.sent = []) ∧ r.2.held = [] ∧ r.2.badRelease = false := by
  have h := introspectBody_triple names fails registered obj .init rfl
  simp only [nihDbusObjectIntrospect]
  revert h
  cases introspectBody names fails registered obj .init with
  | ok fr => exact fun ⟨hh, hb, hs⟩ => ⟨.inl ⟨rfl, hs⟩, hh, hb⟩
  | error fr =>
    intro h
    obtain ⟨hh, hb, hs⟩ := introspectError_clean h
    exact ⟨.inr ⟨rfl, hs⟩, hh, hb⟩

/-- **Sent once or not at all, released on every path**: under any failures,
`nih_dbus_object_introspect` returns `HANDLED` exactly when one reply was
sent, and otherwise `NEED_MEMORY` with no reply sent; on both paths the
string, the array and the reply it acquired have been released, none twice. -/
theorem introspect_reply_once (names : DBusNames) (fails : Nat → Bool) (registered : List String)
    (obj : NihDBusObject) :
    let r := nihDbusObjectIntrospect names fails registered obj
    (r.1 = .handled ↔ r.2.sent.length = 1) ∧ (r.1 ≠ .handled → r.1 = .needMemory ∧ r.2.sent = []) ∧
      r.2.held = [] ∧ r.2.badRelease = false := by
  obtain ⟨hr, hh, hb⟩ := nihDbusObjectIntrospect_spec names fails registered obj
  refine ⟨?_, ?_, hh, hb⟩ <;> rcases hr with ⟨h1, h2⟩ | ⟨h1, h2⟩ <;> simp [h1, h2]

end NihDBus
