import Mathlib
import NihDBus.Introspect

/-!
# Dispatching calls to an object (dbus.c:964–1037)

libdbus hands every message addressed to an object's path to
`nih_dbus_object_message`. The function answers `Introspect` itself, declines
the Properties methods, and otherwise looks through the object's interface
table for a method the message calls, and runs that method's marshaller with
a wrapper holding the connection and the message, keeping a reference to the
message for the duration of the call.

- `DispatchEvent`: what the function does besides returning: it answers an
  introspection, allocates and frees the wrapper, takes and drops a reference
  to the message, and runs a marshaller.
- `findMethod` and `findMarshaller` are the two nested loops, with the
  `nih_assert` on each method's marshaller; they give `none` when the
  assertion fails.
- `nihDbusObjectMessage` is the function, for the marshallers `marshal` of
  the program, `alloc` saying whether `nih_new` of the wrapper succeeds, and
  the environment of `nih_dbus_object_introspect`.
- `firstMatch` is what the loops are for: the first (interface, method) pair
  of the table, interfaces and methods in array order, that the message
  calls. `findMarshaller_eq` shows that the loops find it when every method
  has a marshaller, and `object_message_dispatch` states what the function
  then does.
-/

namespace NihDBus

/-! ## The function -/

/-- What `nih_dbus_object_message` does besides returning a result. -/
inductive DispatchEvent
  | introspect
  | wrapperNew
  | messageRef
  | marshal (f : Nat) (msg : NihDBusMessage)
  | messageUnref
  | wrapperFree

/-- The loop over an interface's methods: the first method the message calls,
`some none` if there is none, and `none` if `nih_assert (method->marshaller
!= NULL)` fails on the way. -/
def findMethod (message : DBusMessage) (iface : String) :
    List NihDBusMethod → Option (Option NihDBusMethod)
  | [] => some none
  | method :: methods =>
    if method.marshaller.isNone then none
    else if dbusMessageIsMethodCall message iface method.name then some (some method)
    else findMethod message iface methods

/-- The loop over the interface table: the marshaller of the first method
found, `some none` if there is none, `none` if an assertion fails. -/
def findMarshaller (message : DBusMessage) : List NihDBusInterface → Option (Option Nat)
  | [] => some none
  | iface :: ifaces =>
    match findMethod message iface.name iface.methods with
    | none => none
    | some (some method) => some method.marshaller
    | some none => findMarshaller message ifaces

/-- `nih_dbus_object_message (conn, message, object)`: the result and what the
function did, or `none` if an assertion fails. -/
def nihDbusObjectMessage (names : DBusNames) (fails : Nat → Bool) (registered : List String)
    (alloc : Bool) (marshal : Nat → NihDBusObject → NihDBusMessage → DBusHandlerResult)
    (conn : Nat) (message : DBusMessage) (object : NihDBusObject) :
    Option (DBusHandlerResult × List DispatchEvent) :=
  if object.conn ≠ conn then none
  else if dbusMessageIsMethodCall message names.interfaceIntrospectable "Introspect" then
    some ((nihDbusObjectIntrospect names fails registered object).1, [.introspect])
  else if dbusMessageIsMethodCall message names.interfaceProperties "Get" then
    some (.notYetHandled, [])
  else if dbusMessageIsMethodCall message names.interfaceProperties "Set" then
    some (.notYetHandled, [])
  else if dbusMessageIsMethodCall message names.interfaceProperties "GetAll" then
    some (.notYetHandled, [])
  else
    (findMarshaller message object.interfaces).map fun
      | none => (.notYetHandled, [])
      | some f =>
        if alloc then
          (marshal f object ⟨conn, message⟩,
            [.wrapperNew, .messageRef, .marshal f ⟨conn, message⟩, .messageUnref, .wrapperFree])
        else (.needMemory, [])

/-! ## What the function is for -/

/-- The first (interface, method) pair of the table, in table order, that
`message` calls. -/
def firstMatch (message : DBusMessage) (ifaces : List NihDBusInterface) : Option NihDBusMethod :=
  ((ifaces.flatMap fun iface => iface.methods.map (iface.name, ·)).find?
    fun p => dbusMessageIsMethodCall message p.1 p.2.name).map Prod.snd

/-- The marshallers run, with the wrappers they receive. -/
def marshalCalls (evs : List DispatchEvent) : List (Nat × NihDBusMessage) :=
  evs.filterMap fun
    | .marshal f msg => some (f, msg)
    | _ => none

/-- What the function does to the message's reference count. -/
def refChange : List DispatchEvent → Int
  | [] => 0
  | .messageRef :: evs => refChange evs + 1
  | .messageUnref :: evs => refChange evs - 1
  | _ :: evs => refChange evs

/-- A call of one of the Properties methods. -/
def isPropertiesCall (names : DBusNames) (message : DBusMessage) : Bool :=
  dbusMessageIsMethodCall message names.interfaceProperties "Get" ||
    dbusMessageIsMethodCall message names.interfaceProperties "Set" ||
    dbusMessageIsMethodCall message names.interfaceProperties "GetAll"

theorem firstMatch_cons (message : DBusMessage) (iface : NihDBusInterface)
    (ifaces : List NihDBusInterface) :
    firstMatch message (iface :: ifaces) =
      (iface.methods.find? fun m => dbusMessageIsMethodCall message iface.name m.name).or
        (firstMatch message ifaces) := by
  simp only [firstMatch, List.flatMap_cons, List.find?_append, List.find?_map, Function.comp_def]
  cases iface.methods.find? _ <;> rfl

/-- The method found is a method of the table that the message calls. -/
theorem firstMatch_mem {message : DBusMessage} {ifaces : List NihDBusInterface} {m : NihDBusMethod}
    (h : firstMatch message ifaces = some m) :
    ∃ iface ∈ ifaces, m ∈ iface.methods ∧
      dbusMessageIsMethodCall message iface.name m.name := by
  simp only [firstMatch, Option.map_eq_some'] at h
  obtain ⟨⟨name, m⟩, hf, rfl⟩ := h
  obtain ⟨iface, hi, hm⟩ := List.mem_flatMap.1 (List.mem_of_find?_eq_some hf)
  obtain ⟨m', hm', he⟩ := List.mem_map.1 hm
  cases he
  have hp := List.find?_some hf
  exact ⟨iface, hi, hm', hp⟩

/-! ## The loops find the first match -/

section Loops

variable (message : DBusMessage)

/-- **The inner loop** finds the first method the message calls, when every
method has a marshaller. -/
theorem findMethod_eq (iface : String) :
    ∀ methods : List NihDBusMethod, (∀ m ∈ methods, m.marshaller.isSome) →
      findMethod message iface methods =
        some (methods.find? fun m => dbusMessageIsMethodCall message iface m.name)
  | [], _ => rfl
  | m :: methods, h => by
    have hm : m.marshaller.isNone = false := by simpa using h m (.head _)
    have ih := findMethod_eq iface methods fun m' hm' => h m' (.tail _ hm')
    by_cases hc : dbusMessageIsMethodCall message iface m.name <;> simp [findMethod, hm, hc, ih]

/-- **The outer loop** finds the marshaller of the first match, when every
method of the table has a marshaller. -/
theorem findMarshaller_eq :
    ∀ ifaces : List NihDBusInterface,
      (∀ iface ∈ ifaces, ∀ m ∈ iface.methods, m.marshaller.isSome) →
      findMarshaller message ifaces = some ((firstMatch message ifaces).bind (·.marshaller))
  | [], _ => rfl
  | iface :: ifaces, h => by
    have ih := findMarshaller_eq ifaces fun i hi => h i (.tail _ hi)
    rw [firstMatch_cons, findMarshaller, findMethod_eq message _ _ (h iface (.head _))]
    cases iface.methods.find? _ <;> simp [ih]

end Loops

/-! ## What the function does -/

/-- **`nih_dbus_object_message` dispatches to the first match.** On an object
of the connection whose methods all have marshallers, the function returns
and leaves the message's reference count as it was. It answers `Introspect`
with `nih_dbus_object_introspect` and runs no marshaller; it declines the
Properties methods without running one. Otherwise it runs the marshaller of
the first (interface, method) pair in table order that the message calls,
once, with a wrapper of the call's connection and message, and returns its
result; with no such pair it declines, and when the wrapper cannot be
allocated it returns `NEED_MEMORY`, in both cases without running any. -/
theorem object_message_dispatch (names : DBusNames) (fails : Nat → Bool) (registered : List String)
    (alloc : Bool) (marshal : Nat → NihDBusObject → NihDBusMessage → DBusHandlerResult)
    (conn : Nat) (message : DBusMessage) (object : NihDBusObject) (hconn : object.conn = conn)
    (hm : ∀ iface ∈ object.interfaces, ∀ m ∈ iface.methods, m.marshaller.isSome) :
    ∃ res evs, nihDbusObjectMessage names fails registered alloc marshal conn message object =
        some (res, evs) ∧ refChange evs = 0 ∧
      (dbusMessageIsMethodCall message names.interfaceIntrospectable "Introspect" →
        res = (nihDbusObjectIntrospect names fails registered object).1 ∧ evs = [.introspect]) ∧
      (dbusMessageIsMethodCall message names.interfaceIntrospectable "Introspect" = false →
        isPropertiesCall names message → res = .notYetHandled ∧ marshalCalls evs = []) ∧
      (dbusMessageIsMethodCall message names.interfaceIntrospectable "Introspect" = false →
        isPropertiesCall names message = false →
        (firstMatch message object.interfaces = none → res = .notYetHandled ∧ marshalCalls evs = []) ∧
        ∀ m, firstMatch message object.interfaces = some m → ∃ f, m.marshaller = some f ∧
          (alloc → res = marshal f object ⟨conn, message⟩ ∧ marshalCalls evs = [(f, ⟨conn, message⟩)]) ∧
          (alloc = false → res = .needMemory ∧ marshalCalls evs = [])) := by
  have hfind := findMarshaller_eq message object.interfaces hm
  have hsome :
      ∀ m, firstMatch message object.interfaces = some m → ∃ f, m.marshaller = some f :=
    fun m h => by
      obtain ⟨iface, hi, hmi, -⟩ := firstMatch_mem h
      exact Option.isSome_iff_exists.1 (hm iface hi m hmi)
  simp only [nihDbusObjectMessage, hconn, ne_eq, not_true_eq_false, ite_false]
  by_cases hi : dbusMessageIsMethodCall message names.interfaceIntrospectable "Introspect"
  · rw [if_pos hi]
    exact ⟨_, _, rfl, rfl, fun _ => ⟨rfl, rfl⟩, fun h => absurd hi (by simp [h]),
      fun h => absurd hi (by simp [h])⟩
  rw [if_neg hi]
  by_cases hg : dbusMessageIsMethodCall message names.interfaceProperties "Get"
  · rw [if_pos hg]
    exact ⟨_, _, rfl, rfl, fun h => absurd h hi, fun _ _ => ⟨rfl, rfl⟩,
      fun _ hp => absurd hp (by simp [isPropertiesCall, hg])⟩
  rw [if_neg hg]
  by_cases hs : dbusMessageIsMethodCall message names.interfaceProperties "Set"
  · rw [if_pos hs]
    exact ⟨_, _, rfl, rfl, fun h => absurd h hi, fun _ _ => ⟨rfl, rfl⟩,
      fun _ hp => absurd hp (by simp [isPropertiesCall, hs])⟩
  rw [if_neg hs]
  by_cases ha : dbusMessageIsMethodCall message names.interfaceProperties "GetAll"
  · rw [if_pos ha]
    exact ⟨_, _, rfl, rfl, fun h => absurd h hi, fun _ _ => ⟨rfl, rfl⟩,
      fun _ hp => absurd hp (by simp [isPropertiesCall, ha])⟩
  have hp : isPropertiesCall names message = false := by simp [isPropertiesCall, hg, hs, ha]
  rw [if_neg ha, hfind, Option.map_some']
  cases hfm : firstMatch message object.interfaces with
  | none =>
    exact ⟨_, _, rfl, rfl, fun h => absurd h hi, fun _ h => absurd h (by simp [hp]),
      fun _ _ => ⟨fun _ => ⟨rfl, rfl⟩, fun _ h => by cases h⟩⟩
  | some m =>
    obtain ⟨f, hf⟩ := hsome m hfm
    simp only [Option.some_bind, hf]
    have hnone : some m = none → False := fun h => by cases h
    cases alloc
    · refine ⟨_, _, rfl, rfl, fun h => absurd h hi, fun _ h => absurd h (by simp [hp]),
        fun _ _ => ⟨fun h => (hnone h).elim, ?_⟩⟩
      rintro m' ⟨⟩
      exact ⟨f, hf, fun h => absurd h (by decide), fun _ => ⟨rfl, rfl⟩⟩
    · refine ⟨_, _, rfl, rfl, fun h => absurd h hi, fun _ h => absurd h (by simp [hp]),
        fun _ _ => ⟨fun h => (hnone h).elim, ?_⟩⟩
      rintro m' ⟨⟩
      exact ⟨f, hf, fun _ => ⟨rfl, rfl⟩, fun h => absurd h (by decide)⟩

/-- A call without an interface field matches a method of that name in every
interface; the first interface's marshaller runs. -/
theorem object_message_dispatch_first_of_two :
    ∃ res evs, nihDbusObjectMessage
        ⟨"a.I", "a.P", "a.L", "/a/L", "<!x>\n", by decide, by decide, ⟨['x'], by decide⟩⟩
        (fun _ => false) [] true (fun f _ _ => if f = 1 then .handled else .notYetHandled) 0
        ⟨.methodCall, some "/o", none, some "m", fun _ => rfl, fun h => nomatch h⟩
        ⟨"/o", 0, [⟨"i", [⟨"m", some 1, []⟩], [], []⟩, ⟨"j", [⟨"m", some 2, []⟩], [], []⟩]⟩ =
          some (res, evs) ∧
      refChange evs = 0 ∧ res = .handled := by
  obtain ⟨res, evs, hr, hc, -, -, hm⟩ := object_message_dispatch
    ⟨"a.I", "a.P", "a.L", "/a/L", "<!x>\n", by decide, by decide, ⟨['x'], by decide⟩⟩
    (fun _ => false) [] true (fun f _ _ => if f = 1 then .handled else .notYetHandled) 0
    ⟨.methodCall, some "/o", none, some "m", fun _ => rfl, fun h => nomatch h⟩
    ⟨"/o", 0, [⟨"i", [⟨"m", some 1, []⟩], [], []⟩, ⟨"j", [⟨"m", some 2, []⟩], [], []⟩]⟩
    rfl (by decide)
  obtain ⟨f, hf, ha, -⟩ := (hm rfl rfl).2 _ rfl
  cases hf
  exact ⟨res, evs, hr, hc, (ha rfl).1⟩


/-! ## A method without a marshaller

The inner loop asserts `method->marshaller != NULL` on every method it visits,
before it compares the method with the message. So the loops stop at the
first method, in table order, that either lacks a marshaller or is called by
the message, and the process aborts when that method lacks one. -/

/-- The (interface, method) pairs of a table, in the order the loops visit them. -/
def tablePairs (ifaces : List NihDBusInterface) : List (String × NihDBusMethod) :=
  ifaces.flatMap fun iface => iface.methods.map (iface.name, ·)

/-- The methods the loops visit for `message`: every method up to and including
the first one the message calls, in table order, or the whole table when it
calls none. -/
def methodsUpToMatch (message : DBusMessage) (ifaces : List NihDBusInterface) :
    List NihDBusMethod :=
  ((tablePairs ifaces).take
    ((tablePairs ifaces).findIdx (fun p => dbusMessageIsMethodCall message p.1 p.2.name) + 1)).map
    Prod.snd

theorem firstMatch_eq (message : DBusMessage) (ifaces : List NihDBusInterface) :
    firstMatch message ifaces =
      ((tablePairs ifaces).find? fun p => dbusMessageIsMethodCall message p.1 p.2.name).map
        Prod.snd := rfl

theorem tablePairs_cons (iface : NihDBusInterface) (ifaces : List NihDBusInterface) :
    tablePairs (iface :: ifaces) = iface.methods.map (iface.name, ·) ++ tablePairs ifaces := rfl

section Scan

variable (message : DBusMessage)

/-- The inner loop as one search: it stops at the first method that lacks a
marshaller or that the message calls. -/
theorem findMethod_eq_find? (iface : String) (methods : List NihDBusMethod) :
    findMethod message iface methods =
      (methods.find? fun m => m.marshaller.isNone || dbusMessageIsMethodCall message iface m.name).elim
        (some none) fun m => if m.marshaller.isNone then none else some (some m) := by
  induction methods with
  | nil => rfl
  | cons m methods ih =>
    rw [findMethod, List.find?_cons]
    cases hm : m.marshaller <;> cases hc : dbusMessageIsMethodCall message iface m.name <;>
      simp [hm, hc, ih]

/-- The two loops as one search over the table's pairs. -/
theorem findMarshaller_eq_find? (ifaces : List NihDBusInterface) :
    findMarshaller message ifaces =
      ((tablePairs ifaces).find? fun p =>
          p.2.marshaller.isNone || dbusMessageIsMethodCall message p.1 p.2.name).elim
        (some none) fun p => if p.2.marshaller.isNone then none else some p.2.marshaller := by
  induction ifaces with
  | nil => rfl
  | cons iface ifaces ih =>
    rw [findMarshaller, findMethod_eq_find?, tablePairs_cons, List.find?_append, List.find?_map]
    simp only [Function.comp_def]
    cases iface.methods.find? _ with
    | none => exact ih
    | some m => cases hm : m.marshaller <;> simp [hm]

end Scan

/-- A search that stops at the first entry that is `stop` or `hit` stops on
a `stop` entry exactly when one comes no later than the first `hit`. -/
theorem find?_stop_iff {α : Type} (stop hit : α → Bool) (ps : List α) :
    (∃ p, ps.find? (fun p => stop p || hit p) = some p ∧ stop p = true) ↔
      ∃ p ∈ ps.take (ps.findIdx hit + 1), stop p = true := by
  induction ps with
  | nil => simp
  | cons p ps ih =>
    rw [List.findIdx_cons]
    cases hs : stop p <;> cases hh : hit p <;> simp [List.find?_cons, hs, hh, ih]

/-- With no `stop` entry up to the first `hit`, the search finds the first `hit`. -/
theorem find?_stop_of_forall {α : Type} (stop hit : α → Bool) (ps : List α)
    (h : ∀ p ∈ ps.take (ps.findIdx hit + 1), stop p = false) :
    ps.find? (fun p => stop p || hit p) = ps.find? hit := by
  induction ps with
  | nil => rfl
  | cons p ps ih =>
    rw [List.findIdx_cons] at h
    have hs : stop p = false := h p (by cases hit p <;> simp)
    cases hh : hit p
    · simp only [hh, cond_false, List.take_succ_cons, List.mem_cons] at h
      simp [List.find?_cons, hs, hh, ih fun q hq => h q (.inr hq)]
    · simp [List.find?_cons, hs, hh]

/-- **Where the `nih_assert` on a marshaller fires.** For a message to an
object of its connection, other than `Introspect` and the Properties methods,
`nih_dbus_object_message` aborts exactly when some method without a
marshaller comes, in table order, no later than the first method the message
calls (anywhere in the table, when it calls none); a method without one that
comes after the first match is never looked at. When every method up to the
match has a marshaller, the loops find the marshaller of the first match. -/
theorem object_message_missing_marshaller (names : DBusNames) (fails : Nat → Bool)
    (registered : List String) (alloc : Bool)
    (marshal : Nat → NihDBusObject → NihDBusMessage → DBusHandlerResult) (conn : Nat)
    (message : DBusMessage) (object : NihDBusObject) (hconn : object.conn = conn)
    (hi : dbusMessageIsMethodCall message names.interfaceIntrospectable "Introspect" = false)
    (hp : isPropertiesCall names message = false) :
    (nihDbusObjectMessage names fails registered alloc marshal conn message object = none ↔
      ∃ m ∈ methodsUpToMatch message object.interfaces, m.marshaller = none) ∧
    ((∀ m ∈ methodsUpToMatch message object.interfaces, m.marshaller.isSome) →
      findMarshaller message object.interfaces =
        some ((firstMatch message object.interfaces).bind (·.marshaller))) := by
  simp only [isPropertiesCall, Bool.or_eq_false_iff] at hp
  obtain ⟨⟨hg, hs⟩, ha⟩ := hp
  have hstop := find?_stop_iff (fun p : String × NihDBusMethod => p.2.marshaller.isNone)
    (fun p => dbusMessageIsMethodCall message p.1 p.2.name) (tablePairs object.interfaces)
  simp only [Option.isNone_iff_eq_none] at hstop
  simp only [methodsUpToMatch, List.mem_map, exists_exists_and_eq_and, ← Option.ne_none_iff_isSome]
  refine ⟨?_, fun h => ?_⟩
  · simp only [nihDbusObjectMessage, hconn, hi, hg, hs, ha, ne_eq, not_true_eq_false, ite_false,
      Bool.false_eq_true, Option.map_eq_none', findMarshaller_eq_find?, Option.isNone_iff_eq_none]
    rw [← hstop]
    cases List.find? _ (tablePairs object.interfaces) with
    | none => simp only [Option.elim_none, reduceCtorEq, false_and, exists_false]
    | some p =>
      by_cases hn : p.2.marshaller = none <;>
        simp only [hn, Option.elim_some, Option.some.injEq, exists_eq_left', ↓reduceIte,
          reduceCtorEq]
  · have heq := find?_stop_of_forall (fun p : String × NihDBusMethod => p.2.marshaller.isNone)
      (fun p => dbusMessageIsMethodCall message p.1 p.2.name) (tablePairs object.interfaces)
      fun p hp => by simpa [Option.isSome_iff_ne_none] using h p.2 ⟨p, hp, rfl⟩
    rw [findMarshaller_eq_find?, heq, firstMatch_eq]
    cases hf : List.find? _ (tablePairs object.interfaces) with
    | none => rfl
    | some p =>
      have hn : p.2.marshaller ≠ none := fun hn =>
        let ⟨q, hq, hqn⟩ := hstop.1 ⟨p, by simpa [Option.isNone_iff_eq_none] using heq.trans hf, hn⟩
        by simpa [hqn] using h q.2 ⟨q, hq, rfl⟩
      simp [Option.isNone_iff_eq_none, hn]

/-- A method without a marshaller in the first interface aborts a call to a
method of the second one: the loops look at it first. -/
theorem object_message_aborts_before_match :
    nihDbusObjectMessage
      ⟨"a.I", "a.P", "a.L", "/a/L", "<!x>\n", by decide, by decide, ⟨['x'], by decide⟩⟩
      (fun _ => false) [] true (fun _ _ _ => .handled) 0
      ⟨.methodCall, some "/o", none, some "m", fun _ => rfl, fun h => nomatch h⟩
      ⟨"/o", 0, [⟨"i", [⟨"x", none, []⟩], [], []⟩, ⟨"j", [⟨"m", some 2, []⟩], [], []⟩]⟩ = none :=
  (object_message_missing_marshaller
    ⟨"a.I", "a.P", "a.L", "/a/L", "<!x>\n", by decide, by decide, ⟨['x'], by decide⟩⟩
    (fun _ => false) [] true (fun _ _ _ => .handled) 0
    ⟨.methodCall, some "/o", none, some "m", fun _ => rfl, fun h => nomatch h⟩
    ⟨"/o", 0, [⟨"i", [⟨"x", none, []⟩], [], []⟩, ⟨"j", [⟨"m", some 2, []⟩], [], []⟩]⟩
    rfl rfl rfl).1.2 ⟨⟨"x", none, []⟩, by decide, rfl⟩

end NihDBus
