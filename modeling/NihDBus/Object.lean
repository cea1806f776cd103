import Mathlib
import NihDBus.Message

/-!
# Objects and their interface tables (dbus.c:853–962)

An `NihDBusObject` exports a NULL-terminated table of `NihDBusInterface`s at
a path on a connection. Each interface holds NULL-terminated arrays of
methods, signals and properties; methods and signals hold argument arrays
terminated by an entry whose type is `NULL`. Every loop over these arrays in
`dbus.c` stops at the terminator and treats a `NULL` array as an empty one,
so each array is a list here.

- `NihDBusArg`, `NihDBusMethod`, `NihDBusSignal`, `NihDBusProperty`,
  `NihDBusInterface`: the table entries, with what `dbus.c` reads of them. A
  method's marshaller is `none` for a `NULL` pointer and otherwise names the
  function.
- `NihDBusObject`, `NihDBusMessage`: an object and the wrapper handed to a
  marshaller.
- `ObjectLife`: the registration of an object with libdbus and its
  allocation, with `nihDbusObjectNew`, `nihDbusObjectDestroy` (the
  destructor `nih_free` runs) and `nihDbusObjectUnregister` (libdbus's
  unregister callback), which call each other. `object_release` shows that
  either release path frees the object once and drops its registration
  once.
-/

namespace NihDBus

/-! ## Interface tables -/

/-- `NIH_DBUS_ARG_IN` and `NIH_DBUS_ARG_OUT`. -/
inductive NihDBusArgDir
  | argIn
  | argOut
  deriving DecidableEq, Repr

/-- `NIH_DBUS_READ`, `NIH_DBUS_WRITE` and `NIH_DBUS_READWRITE`. -/
inductive NihDBusAccess
  | read
  | write
  | readwrite
  deriving DecidableEq, Repr

/-- An argument of a method or signal. -/
structure NihDBusArg where
  name : String
  type : String
  dir : NihDBusArgDir
  deriving DecidableEq, Repr

/-- A method: its name, the marshaller that handles calls to it, its arguments. -/
structure NihDBusMethod where
  name : String
  marshaller : Option Nat
  args : List NihDBusArg
  deriving DecidableEq, Repr

/-- A signal: its name and arguments. -/
structure NihDBusSignal where
  name : String
  args : List NihDBusArg
  deriving DecidableEq, Repr

/-- A property: its name, type and access. -/
structure NihDBusProperty where
  name : String
  type : String
  access : NihDBusAccess
  deriving DecidableEq, Repr

/-- An interface: its name and its method, signal and property arrays. -/
structure NihDBusInterface where
  name : String
  methods : List NihDBusMethod
  signals : List NihDBusSignal
  properties : List NihDBusProperty
  deriving DecidableEq, Repr

/-- An exported object: its path, the connection it is registered on, and
its interface table. -/
structure NihDBusObject where
  path : String
  conn : Nat
  interfaces : List NihDBusInterface
  deriving DecidableEq, Repr

/-- `NihDBusMessage`: the wrapper a marshaller receives, carrying the
connection and the message of the call. -/
structure NihDBusMessage where
  conn : Nat
  message : DBusMessage

/-! ## Registration and release

`nih_free (object)` runs the destructor `nih_dbus_object_destroy`, which
unregisters the path; libdbus then calls the object's unregister function
`nih_dbus_object_unregister`, which frees the object; which frees it again
unless the `registered` flag, cleared first on both paths, stops the cycle.
The four functions call each other, and terminate because each round clears
the flag. -/

/-- What the release paths act on: whether the object's block is allocated,
its `registered` flag, whether libdbus holds the path registration with the
object as its data, and how often the block was freed and the registration
dropped. -/
structure ObjectLife where
  allocated : Bool
  registered : Bool
  pathRegistered : Bool
  frees : Nat
  unregistrations : Nat
  deriving DecidableEq, Repr

mutual

/-- `nih_free (object)`: the destructor runs, then the block is released. -/
def nihFreeObject (s : ObjectLife) : ObjectLife :=
  let s := nihDbusObjectDestroy s
  { s with allocated := false, frees := s.frees + 1 }
termination_by 4 * s.registered.toNat + 3

/-- `nih_dbus_object_destroy`. -/
def nihDbusObjectDestroy (s : ObjectLife) : ObjectLife :=
  if s.registered then dbusConnectionUnregisterObjectPath { s with registered := false }
  else s
termination_by 4 * s.registered.toNat + 2

/-- Modelled from the spec: `dbus_connection_unregister_object_path` drops the
registration of the path, if there is one, and calls the unregister
function of the object registered there. -/
def dbusConnectionUnregisterObjectPath (s : ObjectLife) : ObjectLife :=
  if s.pathRegistered then
    nihDbusObjectUnregister
      { s with pathRegistered := false, unregistrations := s.unregistrations + 1 }
  else s
termination_by 4 * s.registered.toNat + 1

/-- `nih_dbus_object_unregister`. -/
def nihDbusObjectUnregister (s : ObjectLife) : ObjectLife :=
  if _h : s.registered then nihFreeObject { s with registered := false } else s
termination_by 4 * s.registered.toNat
decreasing_by simp [_h]

end

/-- The library calls in `nih_dbus_object_new` that can fail. -/
inductive ObjectNewStep
  | nihNew
  | nihStrdup
  | registerObjectPath
  deriving DecidableEq, Repr

/-- `nih_dbus_object_new`, where the calls in `fails` fail: whether it returns
an object, and the object's state. A failure after the allocation frees the
block before a destructor is set. -/
def nihDbusObjectNew (fails : List ObjectNewStep) : Bool × ObjectLife :=
  if .nihNew ∈ fails then (false, ⟨false, false, false, 0, 0⟩)
  else if .nihStrdup ∈ fails then (false, ⟨false, false, false, 1, 0⟩)
  else if .registerObjectPath ∈ fails then (false, ⟨false, false, false, 1, 0⟩)
  else (true, ⟨true, true, true, 0, 0⟩)

/-- **Both release paths free the object once.** While the `registered` flag
agrees with libdbus's registration, as `nih_dbus_object_new` leaves it,
`nih_free` frees the block once and drops the registration once if there is
one, and libdbus dropping the registration frees the block once; neither
path goes round the cycle again. -/
theorem object_release {s : ObjectLife} (h : s.registered = s.pathRegistered) :
    nihFreeObject s =
      { s with allocated := false, registered := false, pathRegistered := false,
               frees := s.frees + 1, unregistrations := s.unregistrations + s.registered.toNat } ∧
    dbusConnectionUnregisterObjectPath s =
      if s.pathRegistered then
        { s with allocated := false, registered := false, pathRegistered := false,
                 frees := s.frees + 1, unregistrations := s.unregistrations + 1 }
      else s := by
  obtain ⟨a, r, p, f, u⟩ := s
  simp only at h
  subst h
  cases r <;>
    simp [nihFreeObject, nihDbusObjectDestroy, dbusConnectionUnregisterObjectPath,
      nihDbusObjectUnregister]

end NihDBus
