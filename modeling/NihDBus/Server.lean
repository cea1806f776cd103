import Mathlib
import NihDBus.Setup

/-!
# Errors, connecting and listening (dbus.c:119–149, 214–300, 407–472, 811–836)

`nih_dbus_connect` and `nih_dbus_bus` open a connection and set it up: a
failed open raises its D-Bus error through `nih_dbus_error_raise`, a failed
setup raises `ENOMEM` and drops the reference the open gave.

`nih_dbus_server` listens on an address and prepares the server so that each
connection made to it is hooked to libnih's main loop. It stores the connect
and disconnect handlers in two of the server's data slots, installs the
bridge's watch and timeout functions, and makes `nih_dbus_new_connection` the
server's new-connection function. A failed listen raises the D-Bus error
through `nih_dbus_error_raise`; a failure after it raises `ENOMEM` and drops
the server (the `error` label).

- `nihDbusConnectReturn` and `nihDbusBusReturn` are `nih_dbus_connect` and
  `nih_dbus_bus` from the start: the open, whose error is raised, and the
  setup of `NihDBus.Setup`, whose failure raises `ENOMEM`.
- `nihDbusServer` follows the source step by step; each library call it makes
  may fail, as the list `fails` says. `NihError` is what it raises.
- `dbusServerNewConnection` is libdbus handing a new connection to the
  server's new-connection function: `nih_dbus_new_connection` reads the two
  handlers back from the slots, calls the connect handler, and sets the
  connection up with the disconnect handler.

## Results

- `nihDbusServer_eq_ok`: a returned server comes from a call where nothing
  failed, and holds both handlers with every function installed.
- `dbusServerNewConnection_eq_apply`: what a returned server does with a
  connection is a `newConnection` call of `NihDBus.Setup`, so the reference
  balance of `disconnect_balance` covers the server's connections.
- `server_connection`: **a connection the server accepts** gets one reference
  and, once the retry loop leaves, one filter, which on the `Disconnected`
  signal calls the disconnect handler given to `nih_dbus_server` and drops
  that reference; a connection the connect handler refuses is left alone.
-/

namespace NihDBus

/-! ## Errors -/

/-- An error raised for the caller: a D-Bus error with its name and message
(`nih_dbus_error_raise`, number `NIH_DBUS_ERROR`), or a system error with its
`errno` (`nih_error_raise_system`). -/
inductive NihError
  | dbus (name message : String)
  | system (errno : Nat)
  deriving DecidableEq, Repr

/-- `ENOMEM`, as Linux numbers it. -/
def enomem : Nat := 12

/-- `nih_dbus_error_raise (name, message)`: the record holds copies of both
strings, made with `NIH_MUST`, so raising cannot fail. -/
def nihDbusErrorRaise (name message : String) : NihError := .dbus name message

/-! ## `nih_dbus_connect` and `nih_dbus_bus` with their errors -/

/-- What `nih_dbus_connect` and `nih_dbus_bus` share around their setup:
`opened` is what `dbus_connection_open` or `dbus_bus_get` gives, a connection
or the name and message of its error, which is raised; `setup` is the rest of
the function, whose failure raises `ENOMEM`. The result is the connection
returned or the error raised, with the connection's state after (`none` when
none was opened). -/
def openThenSetup (opened : Except (String × String) DBusConnection)
    (setup : DBusConnection → Bool × DBusConnection) :
    Except NihError DBusConnection × Option DBusConnection :=
  match opened with
  | .error (name, message) => (.error (nihDbusErrorRaise name message), none)
  | .ok c =>
    let r := setup c
    if r.1 then (.ok r.2, some r.2) else (.error (.system enomem), some r.2)

/-- `nih_dbus_connect (address, disconnect_handler)` from the start. -/
def nihDbusConnectReturn (opened : Except (String × String) DBusConnection)
    (fails : List SetupStep) (loop : Nat) (handler : Option Nat) :
    Except NihError DBusConnection × Option DBusConnection :=
  openThenSetup opened (nihDbusConnect fails loop handler)

/-- `nih_dbus_bus (bus, disconnect_handler)` from the start. -/
def nihDbusBusReturn (opened : Except (String × String) DBusConnection)
    (fails : List SetupStep) (loop : Nat) (handler : Option Nat) :
    Except NihError DBusConnection × Option DBusConnection :=
  openThenSetup opened (nihDbusBus fails loop handler)

/-! ## `nih_dbus_server` -/

/-- The library calls after `dbus_server_listen` that can fail. -/
inductive ServerStep
  | allocateConnectSlot
  | setConnectData
  | allocateDisconnectSlot
  | setDisconnectData
  | setWatchFunctions
  | setTimeoutFunctions
  deriving DecidableEq, Repr

/-- What `dbus.c` reads and writes of a server: the handlers in its
`connect_handler_slot` and `disconnect_handler_slot` (`none` for `NULL`),
whether nih's watch, timeout and new-connection functions are installed, and
the references held on it. -/
structure DBusServer where
  connectHandler : Option Nat
  disconnectHandler : Option Nat
  watchFunctions : Bool
  timeoutFunctions : Bool
  newConnectionFunction : Bool
  refs : Nat
  deriving DecidableEq, Repr

/-- A server `dbus_server_listen` has just made, with the caller's reference. -/
def DBusServer.listening : DBusServer := ⟨none, none, false, false, false, 1⟩

/-- How `nih_dbus_server` ends: it returns the server, or it returns `NULL`
having raised an error, with the server it dropped (`none` when the listen
made none). -/
inductive ServerResult
  | ok (server : DBusServer)
  | error (err : NihError) (dropped : Option DBusServer)
  deriving DecidableEq, Repr

/-- The `error:` label: `errno = ENOMEM`, raise it, drop the server. -/
def serverError (s : DBusServer) : ServerResult :=
  .error (.system enomem) (some { s with refs := s.refs - 1 })

/-- `nih_dbus_server (address, connect_handler, disconnect_handler)`, where
`dbus_server_listen` fails with the D-Bus error `listenError` if there is one
and the later library calls in `fails` fail. -/
def nihDbusServer (listenError : Option (String × String)) (fails : List ServerStep)
    (connectHandler disconnectHandler : Option Nat) : ServerResult :=
  match listenError with
  | some (name, message) => .error (nihDbusErrorRaise name message) none
  | none =>
    let s := DBusServer.listening
    if .allocateConnectSlot ∈ fails then serverError s
    else if .setConnectData ∈ fails then serverError s
    else
      let s := { s with connectHandler := connectHandler }
      if .allocateDisconnectSlot ∈ fails then serverError s
      else if .setDisconnectData ∈ fails then serverError s
      else
        let s := { s with disconnectHandler := disconnectHandler }
        if .setWatchFunctions ∈ fails then serverError s
        else
          let s := { s with watchFunctions := true }
          if .setTimeoutFunctions ∈ fails then serverError s
          else .ok { s with timeoutFunctions := true, newConnectionFunction := true }

/-- Modelled from libdbus: a connection made to a server goes to the server's
new-connection function if it has one, and is otherwise dropped by libdbus.
Nih's function is `nih_dbus_new_connection`, which reads the connect handler
from its slot and refuses the connection only when there is one and it
returns `FALSE` (`accepts` says what each handler returns), then sets the
connection up with the handler in the disconnect slot. -/
def dbusServerNewConnection (accepts : Nat → Bool) (attempts : List (List SetupStep × Nat))
    (server : DBusServer) (c : DBusConnection) : Option DBusConnection :=
  if server.newConnectionFunction then
    nihDbusNewConnection (server.connectHandler.all accepts) attempts server.disconnectHandler c
  else some c

/-! ## What the server call does -/

/-- Everything the server call does once the listen has succeeded: it returns
the finished server when no call fails, and otherwise takes the `error` label
with the server the listen made, before any new-connection function. -/
theorem nihDbusServer_cases (fails : List ServerStep)
    (connectHandler disconnectHandler : Option Nat) :
    (fails = [] ∧ nihDbusServer none fails connectHandler disconnectHandler =
      .ok ⟨connectHandler, disconnectHandler, true, true, true, 1⟩) ∨
    ∃ s : DBusServer, s.refs = 1 ∧ s.newConnectionFunction = false ∧
      nihDbusServer none fails connectHandler disconnectHandler = serverError s := by
  unfold nihDbusServer
  by_cases h1 : ServerStep.allocateConnectSlot ∈ fails
  · exact .inr ⟨_, rfl, rfl, if_pos h1⟩
  rw [if_neg h1]
  by_cases h2 : ServerStep.setConnectData ∈ fails
  · exact .inr ⟨_, rfl, rfl, if_pos h2⟩
  rw [if_neg h2]
  by_cases h3 : ServerStep.allocateDisconnectSlot ∈ fails
  · exact .inr ⟨_, rfl, rfl, if_pos h3⟩
  rw [if_neg h3]
  by_cases h4 : ServerStep.setDisconnectData ∈ fails
  · exact .inr ⟨_, rfl, rfl, if_pos h4⟩
  rw [if_neg h4]
  by_cases h5 : ServerStep.setWatchFunctions ∈ fails
  · exact .inr ⟨_, rfl, rfl, if_pos h5⟩
  rw [if_neg h5]
  by_cases h6 : ServerStep.setTimeoutFunctions ∈ fails
  · exact .inr ⟨_, rfl, rfl, if_pos h6⟩
  refine .inl ⟨List.eq_nil_iff_forall_not_mem.2 fun st => ?_, if_neg h6⟩
  cases st <;> assumption

/-- A returned server: nothing failed, and every step of the source was taken. -/
theorem nihDbusServer_eq_ok {listenError : Option (String × String)} {fails : List ServerStep}
    {connectHandler disconnectHandler : Option Nat} {server : DBusServer}
    (h : nihDbusServer listenError fails connectHandler disconnectHandler = .ok server) :
    listenError = none ∧ fails = [] ∧
      server = ⟨connectHandler, disconnectHandler, true, true, true, 1⟩ := by
  rcases listenError with _ | ⟨name, message⟩
  · rcases nihDbusServer_cases fails connectHandler disconnectHandler with
      ⟨hf, hs⟩ | ⟨s, -, -, hs⟩ <;> rw [hs] at h
    · cases h; exact ⟨rfl, hf, rfl⟩
    · cases h
  · cases h

/-! ## The server's connections -/

/-- What a returned server does with a new connection is the `newConnection`
call of a connection's run, with the connect handler's answer and the
server's disconnect handler. -/
theorem dbusServerNewConnection_eq_apply {listenError : Option (String × String)}
    {fails : List ServerStep} {connectHandler disconnectHandler : Option Nat} {server : DBusServer}
    (hs : nihDbusServer listenError fails connectHandler disconnectHandler = .ok server)
    (accepts : Nat → Bool) (attempts : List (List SetupStep × Nat)) (c : DBusConnection) :
    dbusServerNewConnection accepts attempts server c =
      (ConnCall.newConnection (connectHandler.all accepts) attempts disconnectHandler).apply c := by
  obtain ⟨-, -, rfl⟩ := nihDbusServer_eq_ok hs
  rfl

/-- **A connection the server accepts** gets one more reference and, once the
retry loop of `nih_dbus_new_connection` leaves, exactly one more filter: the
disconnect filter with the handler given to `nih_dbus_server`. On the
`Disconnected` signal, claimed by no other filter, that filter runs after the
connection's earlier ones, calls the handler if there is one, and drops the
reference. A connection the connect handler refuses is left as it was. -/
theorem server_connection (names : DBusNames) {listenError : Option (String × String)}
    {fails : List ServerStep} {connectHandler disconnectHandler : Option Nat} {server : DBusServer}
    (hs : nihDbusServer listenError fails connectHandler disconnectHandler = .ok server)
    (accepts : Nat → Bool) (attempts : List (List SetupStep × Nat)) {c c' : DBusConnection}
    (h : dbusServerNewConnection accepts attempts server c = some c') :
    (connectHandler.all accepts = false → c' = c) ∧
    (connectHandler.all accepts = true →
      c'.refs = c.refs + 1 ∧ c'.filters = c.filters ++ [.connectionDisconnected disconnectHandler] ∧
      ∀ foreign m, isDisconnected names m = true →
        (∀ id, .foreign id ∈ c.filters → foreign id m = .notYetHandled) →
        runFilters names foreign m c'.filters = (.notYetHandled,
          c.filters.flatMap disconnectEvents ++
            (disconnectHandler.toList.map .handlerCalled ++ [.unref]))) := by
  rw [dbusServerNewConnection_eq_apply hs] at h
  refine ⟨fun ha => ?_, fun ha => ?_⟩
  · simpa [ConnCall.apply, nihDbusNewConnection, ha, eq_comm] using h
  · simp only [ConnCall.apply, nihDbusNewConnection, ha, not_true_eq_false, if_false] at h
    obtain ⟨hr, hf⟩ := nihZeroSetup_spec h
    refine ⟨hr, hf, fun foreign m hm hfor => ?_⟩
    rw [hf, runFilters_disconnected hm (by simpa [hf] using hfor)]
    simp [disconnectEvents]

theorem server_connection_accepted :
    ∃ c', dbusServerNewConnection (fun _ => true) [([.addFilter], 3), ([], 4)]
        ⟨some 1, some 2, true, true, true, 1⟩ .fresh = some c' ∧
      c'.refs = 1 ∧ c'.filters = [.connectionDisconnected (some 2)] :=
  have h := (@server_connection
    ⟨"a.I", "a.P", "a.L", "/a/L", "<!x>\n", by decide, by decide, ⟨['x'], by decide⟩⟩
    none [] (some 1) (some 2) _ rfl (fun _ => true) [([.addFilter], 3), ([], 4)] .fresh _ rfl).2 rfl
  ⟨_, rfl, h.1, h.2.1⟩

end NihDBus
