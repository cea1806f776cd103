import Mathlib
import NihDBus.Message
import NihDBus.Bridge

/-!
# Hooking a connection to the main loop (dbus.c:214–377, 773–836)

`nih_dbus_setup` hooks a D-Bus connection to libnih's main loop: it stores a
main-loop function in the connection's `main_loop_slot`, installs the watch,
timeout and wakeup functions of the bridge, and appends the filter
`nih_dbus_connection_disconnected`, which on the local `Disconnected` signal
calls the user's disconnect handler and drops one reference to the
connection. A connection whose slot is already bound is taken to be set up
and only gets a further filter (the `shared` label).

`nih_dbus_connect`, `nih_dbus_bus` and the server's `nih_dbus_new_connection`
take a reference to the connection and run the setup; the first two drop the
reference again when the setup fails, the third repeats the setup until it
succeeds (`NIH_ZERO`). Each call touches only the connection it is given, so
the model follows one connection through a run of calls.

- `nihDbusSetup` follows the source step by step; each library call it makes
  may fail, as the list `fails` says.
- `runCalls` runs a sequence of calls; `SetupInv` is what the setup keeps.
- `nihDbusConnectionDisconnected` is the filter, `runFilters` libdbus's filter
  chain.

## Results

- `nihDbusSetup_partial_install`: a setup that fails at
  `dbus_connection_set_watch_functions` leaves the slot bound, so every later
  setup takes the `shared` branch and the connection is never hooked to the
  main loop, also through the retry loop of `nih_dbus_new_connection`.
- `setup_invariant`: what does hold over every run.
- `disconnect_balance`: over every run of `nih_dbus_connect`, `nih_dbus_bus`
  and `nih_dbus_new_connection` the module holds one reference per filter,
  and the `Disconnected` signal releases all of them.
-/

namespace NihDBus

/-! ## The connection -/

/-- The library calls inside `nih_dbus_setup` that can fail. -/
inductive SetupStep
  | allocateDataSlot
  | mainLoopAddFunc
  | setData
  | setWatchFunctions
  | setTimeoutFunctions
  | addFilter
  deriving DecidableEq, Repr

/-- A filter on a connection: `nih_dbus_connection_disconnected` with the
disconnect handler it was added with (`none` for `NULL`), or a filter some
other code added. -/
inductive DBusFilter
  | connectionDisconnected (handler : Option Nat)
  | foreign (id : Nat)
  deriving DecidableEq, Repr

/-- What `dbus.c` reads and writes of a connection: the `main_loop_slot`
data, the main-loop functions that dispatch it, whether nih's watch, timeout
and wakeup functions are installed, its filter list in order, and the
references this module holds on it. -/
structure DBusConnection where
  mainLoop : Option Nat
  loopFuncs : List Nat
  watchFunctions : Bool
  timeoutFunctions : Bool
  wakeupMainFunction : Bool
  filters : List DBusFilter
  refs : Nat
  deriving DecidableEq, Repr

/-- A connection nothing has been set up on. -/
def DBusConnection.fresh : DBusConnection := ⟨none, [], false, false, false, [], 0⟩

/-! ## `nih_dbus_setup` -/

/-- The `shared:` tail of `nih_dbus_setup`: append the disconnect filter. -/
def addDisconnectFilter (fails : List SetupStep) (handler : Option Nat) (c : DBusConnection) :
    Int × DBusConnection :=
  if .addFilter ∈ fails then (-1, c)
  else (0, { c with filters := c.filters ++ [.connectionDisconnected handler] })

/-- `nih_dbus_setup (conn, disconnect_handler)`, where the library calls in
`fails` fail and `nih_main_loop_add_func` returns the function `loop`. -/
def nihDbusSetup (fails : List SetupStep) (loop : Nat) (handler : Option Nat)
    (c : DBusConnection) : Int × DBusConnection :=
  if .allocateDataSlot ∈ fails then (-1, c)
  else if c.mainLoop.isSome then addDisconnectFilter fails handler c
  else if .mainLoopAddFunc ∈ fails then (-1, c)
  else
    let c := { c with loopFuncs := nihListAdd c.loopFuncs loop }
    if .setData ∈ fails then (-1, { c with loopFuncs := nihListRemove c.loopFuncs loop })
    else
      let c := { c with mainLoop := some loop }
      if .setWatchFunctions ∈ fails then (-1, c)
      else
        let c := { c with watchFunctions := true }
        if .setTimeoutFunctions ∈ fails then (-1, c)
        else
          addDisconnectFilter fails handler
            { c with timeoutFunctions := true, wakeupMainFunction := true }

/-- What `nih_dbus_connect` and `nih_dbus_bus` do once libdbus has opened the
connection and handed them a reference: set it up, and drop the reference if
that fails. The flag says whether the connection is returned. -/
def setupOpened (fails : List SetupStep) (loop : Nat) (handler : Option Nat)
    (c : DBusConnection) : Bool × DBusConnection :=
  let s := nihDbusSetup fails loop handler { c with refs := c.refs + 1 }
  if s.1 < 0 then (false, { s.2 with refs := s.2.refs - 1 }) else (true, s.2)

/-- `nih_dbus_connect` after `dbus_connection_open` has succeeded. -/
def nihDbusConnect (fails : List SetupStep) (loop : Nat) (handler : Option Nat)
    (c : DBusConnection) : Bool × DBusConnection :=
  setupOpened fails loop handler c

/-- `nih_dbus_bus` after `dbus_bus_get` has succeeded. -/
def nihDbusBus (fails : List SetupStep) (loop : Nat) (handler : Option Nat)
    (c : DBusConnection) : Bool × DBusConnection :=
  setupOpened fails loop handler c

/-- `NIH_ZERO (nih_dbus_setup (conn, disconnect_handler))`: the setup run
again until it returns zero, each attempt meeting the failures and main-loop
function listed for it; `none` while the loop has not left. -/
def nihZeroSetup (handler : Option Nat) :
    List (List SetupStep × Nat) → DBusConnection → Option DBusConnection
  | [], _ => none
  | (fails, loop) :: attempts, c =>
    let s := nihDbusSetup fails loop handler c
    if s.1 = 0 then some s.2 else nihZeroSetup handler attempts s.2

/-- `nih_dbus_new_connection`: a connection the connect handler refuses is
left alone (`accept` is false only for a handler that returned `FALSE`);
otherwise it is referenced and set up until the setup succeeds. -/
def nihDbusNewConnection (accept : Bool) (attempts : List (List SetupStep × Nat))
    (handler : Option Nat) (c : DBusConnection) : Option DBusConnection :=
  if ¬ accept then some c else nihZeroSetup handler attempts { c with refs := c.refs + 1 }

/-! ## Runs -/

/-- The calls that change a connection: this module's entry points, and a
filter added by other code. -/
inductive ConnCall
  | connect (fails : List SetupStep) (loop : Nat) (handler : Option Nat)
  | bus (fails : List SetupStep) (loop : Nat) (handler : Option Nat)
  | newConnection (accept : Bool) (attempts : List (List SetupStep × Nat)) (handler : Option Nat)
  | setup (fails : List SetupStep) (loop : Nat) (handler : Option Nat)
  | addFilter (id : Nat)
  deriving DecidableEq, Repr

/-- One call; `none` for a retry loop that has not left. -/
def ConnCall.apply (c : DBusConnection) : ConnCall → Option DBusConnection
  | .connect fails loop handler => some (nihDbusConnect fails loop handler c).2
  | .bus fails loop handler => some (nihDbusBus fails loop handler c).2
  | .newConnection accept attempts handler => nihDbusNewConnection accept attempts handler c
  | .setup fails loop handler => some (nihDbusSetup fails loop handler c).2
  | .addFilter id => some { c with filters := c.filters ++ [.foreign id] }

/-- A run of calls on one connection. -/
def runCalls : List ConnCall → DBusConnection → Option DBusConnection
  | [], c => some c
  | call :: calls, c => (call.apply c).bind (runCalls calls)

/-- The calls that come with a reference of this module's own: all but a
direct `nih_dbus_setup`, whose caller brings the reference. -/
def ConnCall.takesReference : ConnCall → Bool
  | .setup .. => false
  | _ => true

/-! ## The disconnect filter -/

/-- What a filter does besides returning a result: call a disconnect handler,
or drop a reference to the connection. -/
inductive FilterEvent
  | handlerCalled (handler : Nat)
  | unref
  deriving DecidableEq, Repr

/-- Whether a message is the local `Disconnected` signal, as the filter tests it. -/
def isDisconnected (names : DBusNames) (m : DBusMessage) : Bool :=
  dbusMessageIsSignal m names.interfaceLocal "Disconnected" && dbusMessageHasPath m names.pathLocal

/-- The filter's test picks out exactly the signal `Disconnected` of the local
interface on the local path. -/
theorem isDisconnected_iff (names : DBusNames) (m : DBusMessage) :
    isDisconnected names m = true ↔
      m.type = .signal ∧ m.interface = some names.interfaceLocal ∧
        m.member = some "Disconnected" ∧ m.path = some names.pathLocal := by
  simp [isDisconnected, dbusMessageIsSignal_iff, dbusMessageHasPath, and_assoc]

/-- `nih_dbus_connection_disconnected`. -/
def nihDbusConnectionDisconnected (names : DBusNames) (handler : Option Nat) (m : DBusMessage) :
    DBusHandlerResult × List FilterEvent :=
  if ¬ dbusMessageIsSignal m names.interfaceLocal "Disconnected" then (.notYetHandled, [])
  else if ¬ dbusMessageHasPath m names.pathLocal then (.notYetHandled, [])
  else (.notYetHandled, handler.toList.map .handlerCalled ++ [.unref])

/-- Modelled from the spec: libdbus runs a connection's filters in order
until one returns something other than `NOT_YET_HANDLED`; `foreign` says what
the other filters return. -/
def runFilters (names : DBusNames) (foreign : Nat → DBusMessage → DBusHandlerResult)
    (m : DBusMessage) : List DBusFilter → DBusHandlerResult × List FilterEvent
  | [] => (.notYetHandled, [])
  | f :: fs =>
    let (r, ev) := match f with
      | .connectionDisconnected handler => nihDbusConnectionDisconnected names handler m
      | .foreign id => (foreign id m, [])
    if r = .notYetHandled then
      let (r', ev') := runFilters names foreign m fs
      (r', ev ++ ev')
    else (r, ev)

/-- The connection after the references a filter run dropped. -/
def DBusConnection.release (c : DBusConnection) (ev : List FilterEvent) : DBusConnection :=
  { c with refs := c.refs - ev.count .unref }

/-- The number of disconnect filters on a list. -/
def disconnectFilters (fs : List DBusFilter) : Nat :=
  fs.countP fun | .connectionDisconnected _ => true | .foreign _ => false

/-- What the disconnect filters do on the `Disconnected` signal, one after the
other: each calls its handler if it has one and drops one reference. -/
def disconnectEvents : DBusFilter → List FilterEvent
  | .connectionDisconnected handler => handler.toList.map .handlerCalled ++ [.unref]
  | .foreign _ => []

/-! ## What one setup does -/

/-- What a setup keeps: the slot is bound to a main-loop function exactly when
that function, and no other, dispatches the connection; the wakeup function
is installed with the timeout functions, those only with the watch functions,
and those only once the slot is bound. -/
structure SetupInv (c : DBusConnection) : Prop where
  loopFuncs_eq : c.loopFuncs = c.mainLoop.toList
  wakeup_eq : c.wakeupMainFunction = c.timeoutFunctions
  watch_of_timeout : c.timeoutFunctions → c.watchFunctions
  bound_of_watch : c.watchFunctions → c.mainLoop.isSome

theorem setupInv_fresh : SetupInv .fresh := ⟨rfl, rfl, nofun, nofun⟩

@[simp] theorem addDisconnectFilter_fst (fails : List SetupStep) (handler : Option Nat)
    (c : DBusConnection) :
    (addDisconnectFilter fails handler c).1 = if .addFilter ∈ fails then -1 else 0 := by
  unfold addDisconnectFilter; split_ifs <;> rfl

/-- Besides its filter list, the `shared:` tail changes nothing. -/
@[simp] theorem addDisconnectFilter_snd (fails : List SetupStep) (handler : Option Nat)
    (c : DBusConnection) :
    (addDisconnectFilter fails handler c).2 = { c with
      filters := if .addFilter ∈ fails then c.filters
        else c.filters ++ [.connectionDisconnected handler] } := by
  unfold addDisconnectFilter; split_ifs <;> rfl

/-- Everything one setup can do, branch by branch: fail with the connection
untouched, take the `shared` branch, or hook a connection not set up yet up to
the call that fails. -/
theorem nihDbusSetup_cases (fails : List SetupStep) (loop : Nat) (handler : Option Nat)
    (c : DBusConnection) :
    nihDbusSetup fails loop handler c = (-1, c) ∨
    c.mainLoop.isSome ∧
      nihDbusSetup fails loop handler c = addDisconnectFilter fails handler c ∨
    c.mainLoop = none ∧ .allocateDataSlot ∉ fails ∧ .mainLoopAddFunc ∉ fails ∧
      (.setData ∈ fails ∧ nihDbusSetup fails loop handler c =
          (-1, { c with loopFuncs := nihListRemove (nihListAdd c.loopFuncs loop) loop }) ∨
       .setData ∉ fails ∧ .setWatchFunctions ∈ fails ∧ nihDbusSetup fails loop handler c =
          (-1, { c with loopFuncs := nihListAdd c.loopFuncs loop, mainLoop := some loop }) ∨
       .setData ∉ fails ∧ .setWatchFunctions ∉ fails ∧ .setTimeoutFunctions ∈ fails ∧
        nihDbusSetup fails loop handler c = (-1, { c with
          loopFuncs := nihListAdd c.loopFuncs loop, mainLoop := some loop,
          watchFunctions := true }) ∨
       .setData ∉ fails ∧ .setWatchFunctions ∉ fails ∧ .setTimeoutFunctions ∉ fails ∧
        nihDbusSetup fails loop handler c = addDisconnectFilter fails handler { c with
          loopFuncs := nihListAdd c.loopFuncs loop, mainLoop := some loop,
          watchFunctions := true, timeoutFunctions := true, wakeupMainFunction := true }) := by
  unfold nihDbusSetup
  by_cases h1 : SetupStep.allocateDataSlot ∈ fails
  · exact .inl (if_pos h1)
  rw [if_neg h1]
  by_cases h2 : c.mainLoop.isSome
  · exact .inr (.inl ⟨h2, if_pos h2⟩)
  rw [if_neg h2]
  by_cases h3 : SetupStep.mainLoopAddFunc ∈ fails
  · exact .inl (if_pos h3)
  rw [if_neg h3]
  refine .inr (.inr ⟨by simpa using h2, h1, h3, ?_⟩)
  by_cases h4 : SetupStep.setData ∈ fails
  · exact .inl ⟨h4, if_pos h4⟩
  rw [if_neg h4]
  by_cases h5 : SetupStep.setWatchFunctions ∈ fails
  · exact .inr (.inl ⟨h4, h5, if_pos h5⟩)
  rw [if_neg h5]
  by_cases h6 : SetupStep.setTimeoutFunctions ∈ fails
  · exact .inr (.inr (.inl ⟨h4, h5, h6, if_pos h6⟩))
  exact .inr (.inr (.inr ⟨h4, h5, h6, if_neg h6⟩))

/-- A setup takes and drops no reference, and either returns zero having
appended its filter or returns `-1` leaving the filters alone. -/
theorem nihDbusSetup_outcome (fails : List SetupStep) (loop : Nat) (handler : Option Nat)
    (c : DBusConnection) :
    (nihDbusSetup fails loop handler c).2.refs = c.refs ∧
    ((nihDbusSetup fails loop handler c).1 = 0 ∧
      (nihDbusSetup fails loop handler c).2.filters =
        c.filters ++ [.connectionDisconnected handler] ∨
     (nihDbusSetup fails loop handler c).1 = -1 ∧
      (nihDbusSetup fails loop handler c).2.filters = c.filters) := by
  rcases nihDbusSetup_cases fails loop handler c with
    h | ⟨-, h⟩ |
      ⟨-, -, -, ⟨-, h⟩ | ⟨-, -, h⟩ | ⟨-, -, -, h⟩ | ⟨-, -, -, h⟩⟩ <;>
    rw [h] <;> by_cases hf : SetupStep.addFilter ∈ fails <;> simp [addDisconnectFilter, hf]

/-- The setup returns zero or `-1`. -/
theorem nihDbusSetup_ret (fails : List SetupStep) (loop : Nat) (handler : Option Nat)
    (c : DBusConnection) :
    (nihDbusSetup fails loop handler c).1 = 0 ∨ (nihDbusSetup fails loop handler c).1 = -1 :=
  (nihDbusSetup_outcome fails loop handler c).2.imp And.left And.left

/-- The setup takes and drops no reference. -/
@[simp] theorem nihDbusSetup_refs (fails : List SetupStep) (loop : Nat) (handler : Option Nat)
    (c : DBusConnection) : (nihDbusSetup fails loop handler c).2.refs = c.refs :=
  (nihDbusSetup_outcome fails loop handler c).1

/-- The setup appends its filter when it succeeds, and only then. -/
theorem nihDbusSetup_filters (fails : List SetupStep) (loop : Nat) (handler : Option Nat)
    (c : DBusConnection) :
    (nihDbusSetup fails loop handler c).2.filters =
      if (nihDbusSetup fails loop handler c).1 = 0 then
        c.filters ++ [.connectionDisconnected handler]
      else c.filters := by
  rcases (nihDbusSetup_outcome fails loop handler c).2 with ⟨h, hf⟩ | ⟨h, hf⟩ <;>
    simp [h, hf]

/-- **Each setup keeps `SetupInv`.** -/
theorem SetupInv.nihDbusSetup {c : DBusConnection} (hc : SetupInv c) (fails : List SetupStep)
    (loop : Nat) (handler : Option Nat) : SetupInv (nihDbusSetup fails loop handler c).2 := by
  obtain ⟨h1, h2, h3, h4⟩ := hc
  rcases nihDbusSetup_cases fails loop handler c with
    h | ⟨-, h⟩ |
      ⟨hn, -, -, ⟨-, h⟩ | ⟨-, -, h⟩ | ⟨-, -, -, h⟩ | ⟨-, -, -, h⟩⟩ <;>
    rw [h]
  -- case: a failure that changes nothing, and the `shared` branch
  · exact ⟨h1, h2, h3, h4⟩
  · rw [addDisconnectFilter_snd]; exact ⟨h1, h2, h3, h4⟩
  -- case: a connection not set up yet, which has nothing installed
  all_goals constructor <;> simp_all [nihListAdd, nihListRemove]

/-- **The setup can leave a connection half hooked.** A setup that fails at
`dbus_connection_set_watch_functions` returns `-1` with the slot bound; the
next setup then takes the `shared` branch and returns `0` with no watch,
timeout or wakeup function installed, and so does the retry loop of
`nih_dbus_new_connection`. -/
theorem nihDbusSetup_partial_install :
    nihDbusSetup [.setWatchFunctions] 1 none .fresh = (-1, ⟨some 1, [1], false, false, false, [], 0⟩) ∧
    nihDbusSetup [] 2 none ⟨some 1, [1], false, false, false, [], 0⟩ =
      (0, ⟨some 1, [1], false, false, false, [.connectionDisconnected none], 0⟩) ∧
    nihDbusNewConnection true [([.setWatchFunctions], 1), ([], 2)] none .fresh =
      some ⟨some 1, [1], false, false, false, [.connectionDisconnected none], 1⟩ := by
  decide

/-! ## Over a run -/

/-- A property every call of a run keeps holds at its end. -/
theorem runCalls_invariant (P : DBusConnection → Prop) {calls : List ConnCall}
    {c c' : DBusConnection}
    (hstep : ∀ call ∈ calls, ∀ c c', P c → call.apply c = some c' → P c')
    (hc : P c) (h : runCalls calls c = some c') : P c' := by
  induction calls generalizing c with
  | nil => cases h; exact hc
  | cons call calls ih =>
    obtain ⟨c₁, h₁, h₂⟩ := Option.bind_eq_some.mp h
    exact ih (fun x hx => hstep x (.tail _ hx)) (hstep call (.head _) c c₁ hc h₁) h₂

theorem SetupInv.setupOpened {c : DBusConnection} (hc : SetupInv c) (fails : List SetupStep)
    (loop : Nat) (handler : Option Nat) : SetupInv (setupOpened fails loop handler c).2 := by
  have h := SetupInv.nihDbusSetup (c := { c with refs := c.refs + 1 }) ⟨hc.1, hc.2, hc.3, hc.4⟩
    fails loop handler
  dsimp only [NihDBus.setupOpened]
  split_ifs
  · exact ⟨h.1, h.2, h.3, h.4⟩
  · exact h

theorem SetupInv.nihZeroSetup {handler : Option Nat} {attempts : List (List SetupStep × Nat)}
    {c c' : DBusConnection} (hc : SetupInv c) (h : nihZeroSetup handler attempts c = some c') :
    SetupInv c' := by
  induction attempts generalizing c with
  | nil => cases h
  | cons a attempts ih =>
    obtain ⟨fails, loop⟩ := a
    simp only [NihDBus.nihZeroSetup] at h
    split_ifs at h
    · cases h; exact hc.nihDbusSetup ..
    · exact ih (hc.nihDbusSetup ..) h

theorem SetupInv.apply {c c' : DBusConnection} (hc : SetupInv c) {call : ConnCall}
    (h : call.apply c = some c') : SetupInv c' := by
  cases call with
  | connect fails loop handler | bus fails loop handler => cases h; exact hc.setupOpened ..
  | newConnection accept attempts handler =>
    cases accept
    · cases h; exact hc
    · exact SetupInv.nihZeroSetup (c := { c with refs := c.refs + 1 })
        ⟨hc.1, hc.2, hc.3, hc.4⟩ h
  | setup fails loop handler => cases h; exact hc.nihDbusSetup ..
  | addFilter id => cases h; exact ⟨hc.1, hc.2, hc.3, hc.4⟩

/-- **What the setup does keep, over every run** of calls on a connection,
failures anywhere included: the slot is bound exactly when one main-loop
function, the one it holds, dispatches the connection (a failed setup leaks
none), and nih's functions are installed only in the order the setup
installs them, the slot first. -/
theorem setup_invariant {calls : List ConnCall} {c : DBusConnection}
    (h : runCalls calls .fresh = some c) : SetupInv c :=
  runCalls_invariant SetupInv (fun _ _ _ _ hc => hc.apply) setupInv_fresh h

theorem setup_invariant_after_failure : SetupInv ⟨some 1, [1], false, false, false, [], 0⟩ :=
  @setup_invariant [.setup [.setWatchFunctions] 1 none] _ rfl

/-! ## References and the disconnect filters -/

@[simp] theorem disconnectFilters_nil : disconnectFilters [] = 0 := rfl

@[simp] theorem disconnectFilters_append (fs gs : List DBusFilter) :
    disconnectFilters (fs ++ gs) = disconnectFilters fs + disconnectFilters gs :=
  List.countP_append ..

@[simp] theorem disconnectFilters_connectionDisconnected (handler : Option Nat) :
    disconnectFilters [.connectionDisconnected handler] = 1 := rfl

@[simp] theorem disconnectFilters_foreign (id : Nat) : disconnectFilters [.foreign id] = 0 := rfl

theorem setupOpened_balanced {c : DBusConnection} (hb : c.refs = disconnectFilters c.filters)
    (fails : List SetupStep) (loop : Nat) (handler : Option Nat) :
    (setupOpened fails loop handler c).2.refs =
      disconnectFilters (setupOpened fails loop handler c).2.filters := by
  have hf := nihDbusSetup_filters fails loop handler { c with refs := c.refs + 1 }
  have hr := nihDbusSetup_refs fails loop handler { c with refs := c.refs + 1 }
  have hret := nihDbusSetup_ret fails loop handler { c with refs := c.refs + 1 }
  dsimp only [NihDBus.setupOpened]
  generalize nihDbusSetup fails loop handler { c with refs := c.refs + 1 } = s at hf hr hret ⊢
  simp only at hf hr
  rcases hret with h | h <;> simp [h, hf, hr, hb]

/-- The retry loop, once it leaves, has appended exactly one filter, the
disconnect filter with the handler it was given, and taken no reference. -/
theorem nihZeroSetup_spec {handler : Option Nat} {attempts : List (List SetupStep × Nat)}
    {c c' : DBusConnection} (h : nihZeroSetup handler attempts c = some c') :
    c'.refs = c.refs ∧ c'.filters = c.filters ++ [.connectionDisconnected handler] := by
  induction attempts generalizing c with
  | nil => cases h
  | cons a attempts ih =>
    obtain ⟨fails, loop⟩ := a
    simp only [NihDBus.nihZeroSetup] at h
    have hf := nihDbusSetup_filters fails loop handler c
    have hr := nihDbusSetup_refs fails loop handler c
    split_ifs at h with h0
    · cases h; exact ⟨hr, by rw [hf, if_pos h0]⟩
    · obtain ⟨h1, h2⟩ := ih h
      rw [hf, if_neg h0] at h2
      exact ⟨h1.trans hr, h2⟩

/-- Each call that brings its own reference keeps one reference per filter. -/
theorem balanced_apply {c c' : DBusConnection} {call : ConnCall} (hcall : call.takesReference)
    (hb : c.refs = disconnectFilters c.filters) (h : call.apply c = some c') :
    c'.refs = disconnectFilters c'.filters := by
  cases call with
  | connect fails loop handler | bus fails loop handler =>
    cases h; exact setupOpened_balanced hb ..
  | newConnection accept attempts handler =>
    cases accept
    · cases h; exact hb
    · obtain ⟨h1, h2⟩ := nihZeroSetup_spec h
      simp only at h1 h2
      simp [h1, h2, hb]
  | setup => cases hcall
  | addFilter id => cases h; simp [hb]

/-- The filter's answer: always `NOT_YET_HANDLED`, with its handler call and
one reference dropped on the `Disconnected` signal and nothing otherwise. -/
theorem nihDbusConnectionDisconnected_eq (names : DBusNames) (handler : Option Nat)
    (m : DBusMessage) :
    nihDbusConnectionDisconnected names handler m = (.notYetHandled,
      if isDisconnected names m then disconnectEvents (.connectionDisconnected handler)
      else []) := by
  unfold nihDbusConnectionDisconnected isDisconnected
  split_ifs <;> simp_all [disconnectEvents]

/-- The `Disconnected` signal, claimed by no other filter, runs every filter
once, in order. -/
theorem runFilters_disconnected {names : DBusNames}
    {foreign : Nat → DBusMessage → DBusHandlerResult} {m : DBusMessage}
    (hm : isDisconnected names m = true) {fs : List DBusFilter}
    (hf : ∀ id, .foreign id ∈ fs → foreign id m = .notYetHandled) :
    runFilters names foreign m fs = (.notYetHandled, fs.flatMap disconnectEvents) := by
  induction fs with
  | nil => rfl
  | cons f fs ih =>
    have ih := ih fun id h => hf id (.tail _ h)
    cases f with
    | connectionDisconnected handler =>
      simp [runFilters, nihDbusConnectionDisconnected_eq, hm, ih]
    | foreign id => simp [runFilters, hf id (.head _), ih, disconnectEvents]

theorem count_unref_disconnectEvents (fs : List DBusFilter) :
    (fs.flatMap disconnectEvents).count .unref = disconnectFilters fs := by
  induction fs with
  | nil => rfl
  | cons f fs ih =>
    rw [List.flatMap_cons, List.count_append, ih, ← List.singleton_append,
      disconnectFilters_append]
    cases f with
    | connectionDisconnected handler => cases handler <;> simp [disconnectEvents]
    | foreign id => simp [disconnectEvents]

/-- **References balance the disconnect filters** (dbus.c:214–295, 773–836).
Over every run of `nih_dbus_connect`, `nih_dbus_bus` and
`nih_dbus_new_connection` on a connection (accepted or refused, with failures
anywhere, through the retry loop, and among filters added by other code) the
module holds one reference per disconnect filter. Any other message passes
each disconnect filter as `NOT_YET_HANDLED` with no handler called and no
reference dropped; the `Disconnected` signal, if no other filter claims it,
runs each disconnect filter once, in order, calling its handler if it has one
and dropping one reference, which leaves the module no reference. -/
theorem disconnect_balance (names : DBusNames) {calls : List ConnCall} {c : DBusConnection}
    (hcalls : ∀ call ∈ calls, call.takesReference) (hrun : runCalls calls .fresh = some c) :
    c.refs = disconnectFilters c.filters ∧
    (∀ handler m, isDisconnected names m = false →
      nihDbusConnectionDisconnected names handler m = (.notYetHandled, [])) ∧
    ∀ foreign m, isDisconnected names m = true →
      (∀ id, .foreign id ∈ c.filters → foreign id m = .notYetHandled) →
      runFilters names foreign m c.filters = (.notYetHandled, c.filters.flatMap disconnectEvents) ∧
        (c.release (c.filters.flatMap disconnectEvents)).refs = 0 := by
  have hb : c.refs = disconnectFilters c.filters :=
    runCalls_invariant (fun c => c.refs = disconnectFilters c.filters)
      (fun call hc _ _ hb h => balanced_apply (hcalls call hc) hb h) rfl hrun
  refine ⟨hb, fun handler m hm => by simp [nihDbusConnectionDisconnected_eq, hm],
    fun foreign m hm hf => ⟨runFilters_disconnected hm hf, ?_⟩⟩
  simp [DBusConnection.release, count_unref_disconnectEvents, hb]

theorem disconnect_balance_run :
    ∃ c, runCalls [.connect [] 1 (some 7), .bus [.addFilter] 2 none,
        .newConnection true [([.addFilter], 3), ([], 4)] none, .addFilter 9] .fresh = some c ∧
      c.refs = 2 ∧ c.refs = disconnectFilters c.filters :=
  ⟨_, rfl, rfl, (@disconnect_balance
    ⟨"a.I", "a.P", "a.L", "/a/L", "<!x>\n", by decide, by decide, ⟨['x'], by decide⟩⟩
    [.connect [] 1 (some 7), .bus [.addFilter] 2 none,
      .newConnection true [([.addFilter], 3), ([], 4)] none, .addFilter 9] _ (by decide) rfl).1⟩

end NihDBus
