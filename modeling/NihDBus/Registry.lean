import Mathlib
import NihDBus.Object

/-!
# The objects of a connection (dbus.c:853–962)

Every object `nih_dbus_object_new` makes lives in two places: libdbus's table
of object paths on the connection, which keeps one registration per path and
hands each message for a path to the object registered there, and the nih
block of the object itself, with its `registered` flag. This module follows
one connection through any run of object calls, for any number of objects:

- `ObjectTable` pairs libdbus's table with the blocks `nih_dbus_object_new`
  made, by address, each with its `NihDBusObject` and its `ObjectLife`.
- `ObjectTable.step` runs one call: `nih_dbus_object_new` at the address
  `nih_new` returns (the registration is refused when the path is taken, as
  `dbus_connection_register_object_path` does), `nih_free` of an object the
  caller holds, and libdbus dropping the registration of a path, as it does
  when asked to or when the connection goes away. Each call runs the
  functions of `NihDBus.Object` on the block it touches.
- `ObjectTable.Inv` is what every call keeps.
- `ObjectCall.exports` says what the table is for: the object each path
  exports, with none of the lifecycle flags.

## Results

- `object_table_safe`: **over every run**, libdbus's table names only live
  objects of the connection, at their own path, so no message is ever handed
  to a freed object; every live object is the one registered at its path, so
  no two share a path; and no block is freed or unregistered twice.
- `object_free_or_unregister`: from any reachable state, `nih_free` of an
  object and libdbus dropping its path reach the same state.
- `object_table_refines`: after every run, libdbus's table is exactly the
  map of exported objects.
- `object_table_disconnect`: once libdbus has dropped every path, as when the
  connection goes away, every live object has been released once and no
  path is registered.
-/

namespace NihDBus

/-! ## The table -/

/-- libdbus's object paths on one connection and nih's object blocks: the
address of the object registered at each path, and for each address
`nih_new` returned, the object made there and its state. -/
structure ObjectTable where
  conn : Nat
  registered : String → Option Nat
  blocks : Nat → Option (NihDBusObject × ObjectLife)

/-- A connection with no objects. -/
def ObjectTable.empty (conn : Nat) : ObjectTable := ⟨conn, fun _ => none, fun _ => none⟩

/-- Whether the block at an address is allocated. -/
def ObjectTable.live (t : ObjectTable) (p : Nat) : Bool :=
  (t.blocks p).any (·.2.allocated)

/-- The calls that change the objects of a connection. -/
inductive ObjectCall
  /-- `nih_dbus_object_new (parent, conn, path, interfaces, data)`, where
  `nih_new` returns the address `p` and the calls in `fails` fail; when
  `nih_new` itself fails, the record at `p` is of a block never allocated. -/
  | new (p : Nat) (path : String) (interfaces : List NihDBusInterface)
      (fails : List ObjectNewStep)
  /-- `nih_free (object)` of the object at `p`, or of its parent block, which
  frees it. -/
  | free (p : Nat)
  /-- libdbus drops the registration of `path`. -/
  | unregister (path : String)

/-- One call. `none` for a call that cannot happen: `nih_new` returning a live
block, `nih_free` of a block that is not allocated, or a registration that
names no block. -/
def ObjectTable.step (t : ObjectTable) : ObjectCall → Option ObjectTable
  | .new p path interfaces fails =>
    if t.live p then none
    else
      let r := nihDbusObjectNew
        (if (t.registered path).isSome then fails ++ [.registerObjectPath] else fails)
      some ⟨t.conn, if r.1 then Function.update t.registered path (some p) else t.registered,
        Function.update t.blocks p (some (⟨path, t.conn, interfaces⟩, r.2))⟩
  | .free p =>
    match t.blocks p with
    | some (obj, s) =>
      if s.allocated then
        some ⟨t.conn,
          if s.registered then Function.update t.registered obj.path none else t.registered,
          Function.update t.blocks p (some (obj, nihFreeObject s))⟩
      else none
    | none => none
  | .unregister path =>
    match t.registered path with
    | none => some t
    | some p =>
      match t.blocks p with
      | some (obj, s) =>
        some ⟨t.conn, Function.update t.registered path none,
          Function.update t.blocks p (some (obj, dbusConnectionUnregisterObjectPath s))⟩
      | none => none

/-- The states a run of calls reaches from a connection with no objects. -/
inductive ObjectTable.Reachable : ObjectTable → Prop
  | init (conn : Nat) : (ObjectTable.empty conn).Reachable
  | step {t t' : ObjectTable} {c : ObjectCall} :
      t.Reachable → t.step c = some t' → t'.Reachable

/-- A run of calls from `t`: `none` when one of them cannot happen. -/
def ObjectTable.run (t : ObjectTable) : List ObjectCall → Option ObjectTable
  | [] => some t
  | c :: cs => (t.step c).bind (·.run cs)

theorem ObjectTable.Reachable.run {t t' : ObjectTable} {cs : List ObjectCall}
    (ht : t.Reachable) (h : t.run cs = some t') : t'.Reachable := by
  induction cs generalizing t with
  | nil => cases h; exact ht
  | cons c cs ih =>
    obtain ⟨t₁, h₁, h⟩ := Option.bind_eq_some.mp h
    exact ih (ht.step h₁) h

/-! ## What the calls do to one block -/

/-- The state of a live object: allocated, registered, never freed. -/
def ObjectLife.live : ObjectLife := ⟨true, true, true, 0, 0⟩

/-- The state both release paths leave a live object in: freed once, its
registration dropped once. -/
def ObjectLife.released : ObjectLife := ⟨false, false, false, 1, 1⟩

/-- A block as the calls leave it: live, or released after at most one free
and at most one unregistration. -/
def ObjectLife.Ok (s : ObjectLife) : Prop :=
  s = .live ∨ s.allocated = false ∧ s.registered = false ∧ s.pathRegistered = false ∧
    s.frees ≤ 1 ∧ s.unregistrations ≤ 1

/-- What `nih_dbus_object_new` leaves: a live object when nothing fails, and
otherwise a block that is not allocated, freed at most once. -/
theorem nihDbusObjectNew_cases (fails : List ObjectNewStep) :
    fails = [] ∧ nihDbusObjectNew fails = (true, .live) ∨
    fails ≠ [] ∧ (nihDbusObjectNew fails).1 = false ∧ (nihDbusObjectNew fails).2.Ok ∧
      (nihDbusObjectNew fails).2.allocated = false := by
  rcases fails with _ | ⟨x, fails⟩
  · exact .inl ⟨rfl, rfl⟩
  refine .inr ⟨List.cons_ne_nil _ _, ?_⟩
  have hdead : ∀ n, n ≤ 1 → ObjectLife.Ok ⟨false, false, false, n, 0⟩ :=
    fun _ hn => .inr ⟨rfl, rfl, rfl, hn, Nat.zero_le _⟩
  unfold nihDbusObjectNew
  by_cases h1 : .nihNew ∈ x :: fails
  · rw [if_pos h1]; exact ⟨rfl, hdead 0 (Nat.zero_le _), rfl⟩
  rw [if_neg h1]
  by_cases h2 : .nihStrdup ∈ x :: fails
  · rw [if_pos h2]; exact ⟨rfl, hdead 1 le_rfl, rfl⟩
  rw [if_neg h2]
  by_cases h3 : .registerObjectPath ∈ x :: fails
  · rw [if_pos h3]; exact ⟨rfl, hdead 1 le_rfl, rfl⟩
  cases x <;> simp at h1 h2 h3

/-- `nih_free` of a live object. -/
theorem nihFreeObject_live : nihFreeObject .live = .released :=
  (object_release (s := .live) rfl).1

/-- libdbus dropping the path of a live object. -/
theorem unregisterObjectPath_live : dbusConnectionUnregisterObjectPath .live = .released :=
  (object_release (s := .live) rfl).2

/-! ## The invariant -/

/-- What every call keeps. -/
structure ObjectTable.Inv (t : ObjectTable) : Prop where
  /-- libdbus names only live objects of the connection, at their own path. -/
  registered_live : ∀ path p, t.registered path = some p →
    ∃ obj, t.blocks p = some (obj, .live) ∧ obj.path = path ∧ obj.conn = t.conn
  /-- A live object is the one libdbus holds at its path. -/
  live_registered : ∀ p obj s, t.blocks p = some (obj, s) → s.allocated = true →
    t.registered obj.path = some p
  /-- Every block is live or released once. -/
  block_ok : ∀ p obj s, t.blocks p = some (obj, s) → s.Ok

theorem ObjectTable.inv_empty (conn : Nat) : (ObjectTable.empty conn).Inv :=
  ⟨fun _ _ h => (by cases h), fun _ _ _ h => (by cases h), fun _ _ _ h => (by cases h)⟩

/-- Releasing the live object at `p`, by `nih_free` or by libdbus: its path
leaves libdbus's table and its block is `released`. -/
def ObjectTable.release (t : ObjectTable) (p : Nat) (obj : NihDBusObject) : ObjectTable :=
  ⟨t.conn, Function.update t.registered obj.path none,
    Function.update t.blocks p (some (obj, .released))⟩

@[simp] theorem ObjectTable.release_conn (t : ObjectTable) (p : Nat) (obj : NihDBusObject) :
    (t.release p obj).conn = t.conn := rfl

@[simp] theorem ObjectTable.release_registered (t : ObjectTable) (p : Nat) (obj : NihDBusObject) :
    (t.release p obj).registered = Function.update t.registered obj.path none := rfl

@[simp] theorem ObjectTable.release_blocks (t : ObjectTable) (p : Nat) (obj : NihDBusObject) :
    (t.release p obj).blocks = Function.update t.blocks p (some (obj, .released)) := rfl

section Inv

variable {t t' : ObjectTable} {p : Nat} {obj : NihDBusObject}

theorem ObjectTable.Inv.live_eq (hinv : t.Inv) {s : ObjectLife}
    (hp : t.blocks p = some (obj, s)) (hs : s.allocated = true) : s = .live := by
  rcases hinv.block_ok p obj s hp with h | ⟨h, -⟩
  · exact h
  · rw [h] at hs; cases hs

/-- An address libdbus names is live, so `nih_new` never returns it. -/
theorem ObjectTable.Inv.registered_ne (hinv : t.Inv) (hp : t.live p = false) {path : String}
    {q : Nat} (hq : t.registered path = some q) : q ≠ p := by
  rintro rfl
  obtain ⟨obj, hb, -⟩ := hinv.registered_live path q hq
  simp [ObjectTable.live, hb, ObjectLife.live] at hp

/-- What an updated block table holds at `q`: the new block, or the old one
at another address. -/
theorem update_blocks_eq_some {b : Nat → Option (NihDBusObject × ObjectLife)} {q : Nat}
    {x y : NihDBusObject × ObjectLife} (h : Function.update b p (some x) q = some y) :
    q = p ∧ y = x ∨ q ≠ p ∧ b q = some y := by
  by_cases hqp : q = p
  · subst hqp
    rw [Function.update_same] at h
    exact .inl ⟨rfl, (Option.some.inj h).symm⟩
  · rw [Function.update_noteq hqp] at h
    exact .inr ⟨hqp, h⟩

/-- A failed `nih_dbus_object_new` at a dead address touches nothing libdbus holds. -/
theorem ObjectTable.Inv.put_dead (hinv : t.Inv) (hp : t.live p = false) {s : ObjectLife}
    (hok : s.Ok) (ha : s.allocated = false) :
    (⟨t.conn, t.registered, Function.update t.blocks p (some (obj, s))⟩ : ObjectTable).Inv := by
  refine ⟨fun path q hq => ?_, fun q obj' s' hq hs' => ?_, fun q obj' s' hq => ?_⟩
  all_goals dsimp only at hq ⊢
  · rw [Function.update_noteq (hinv.registered_ne hp hq)]
    exact hinv.registered_live path q hq
  · rcases update_blocks_eq_some hq with ⟨rfl, he⟩ | ⟨-, hq⟩
    · cases he
      rw [ha] at hs'
      cases hs'
    · exact hinv.live_registered q obj' s' hq hs'
  · rcases update_blocks_eq_some hq with ⟨rfl, he⟩ | ⟨-, hq⟩
    · cases he
      exact hok
    · exact hinv.block_ok q obj' s' hq

/-- A successful `nih_dbus_object_new` at a dead address and a free path. -/
theorem ObjectTable.Inv.register (hinv : t.Inv) (hp : t.live p = false) {path : String}
    (hpath : t.registered path = none) (interfaces : List NihDBusInterface) :
    (⟨t.conn, Function.update t.registered path (some p),
      Function.update t.blocks p (some (⟨path, t.conn, interfaces⟩, .live))⟩ : ObjectTable).Inv := by
  refine ⟨fun path' q hq => ?_, fun q obj' s' hq hs' => ?_, fun q obj' s' hq => ?_⟩
  all_goals dsimp only at hq ⊢
  · by_cases hpath' : path' = path
    · subst hpath'
      rw [Function.update_same] at hq
      cases hq
      exact ⟨_, Function.update_same _ _ _, rfl, rfl⟩
    · rw [Function.update_noteq hpath'] at hq
      rw [Function.update_noteq (hinv.registered_ne hp hq)]
      exact hinv.registered_live path' q hq
  · rcases update_blocks_eq_some hq with ⟨rfl, he⟩ | ⟨hqp, hq⟩
    · cases he
      exact Function.update_same _ _ _
    · have hq' := hinv.live_registered q obj' s' hq hs'
      have hne : obj'.path ≠ path := fun he => by rw [he, hpath] at hq'; cases hq'
      rw [Function.update_noteq hne, hq']
  · rcases update_blocks_eq_some hq with ⟨rfl, he⟩ | ⟨-, hq⟩
    · cases he
      exact .inl rfl
    · exact hinv.block_ok q obj' s' hq

theorem ObjectTable.Inv.release (hinv : t.Inv) (hp : t.blocks p = some (obj, .live)) :
    (t.release p obj).Inv := by
  have hreg := hinv.live_registered p obj _ hp rfl
  refine ⟨fun path q hq => ?_, fun q obj' s hq hs => ?_, fun q obj' s hq => ?_⟩
  all_goals simp only [ObjectTable.release_registered, ObjectTable.release_blocks,
    ObjectTable.release_conn] at hq ⊢
  · by_cases hpath : path = obj.path
    · rw [hpath, Function.update_same] at hq; cases hq
    rw [Function.update_noteq hpath] at hq
    obtain ⟨obj', hq', rfl, hc⟩ := hinv.registered_live _ q hq
    have hqp : q ≠ p := by
      rintro rfl
      rw [hp] at hq'
      cases hq'
      exact hpath rfl
    exact ⟨obj', by rw [Function.update_noteq hqp, hq'], rfl, hc⟩
  · rcases update_blocks_eq_some hq with ⟨rfl, he⟩ | ⟨hqp, hq⟩
    · cases he
      cases hs
    have hq' := hinv.live_registered q obj' s hq hs
    have hpath : obj'.path ≠ obj.path := fun he => hqp (by rw [he, hreg] at hq'; cases hq'; rfl)
    rw [Function.update_noteq hpath, hq']
  · rcases update_blocks_eq_some hq with ⟨rfl, he⟩ | ⟨-, hq⟩
    · cases he
      exact .inr ⟨rfl, rfl, rfl, le_rfl, le_rfl⟩
    exact hinv.block_ok q obj' s hq

/-! ## What each call does -/

/-- `nih_dbus_object_new` at a dead address registers a live object when the
path is free and nothing fails, and otherwise leaves a dead block and
libdbus's table as it was. -/
theorem ObjectTable.step_new_cases {path : String} {interfaces : List NihDBusInterface}
    {fails : List ObjectNewStep} (h : t.step (.new p path interfaces fails) = some t') :
    t.live p = false ∧
    (t.registered path = none ∧ fails = [] ∧
        t' = ⟨t.conn, Function.update t.registered path (some p),
          Function.update t.blocks p (some (⟨path, t.conn, interfaces⟩, .live))⟩ ∨
      ¬(t.registered path = none ∧ fails = []) ∧ ∃ s : ObjectLife, s.Ok ∧ s.allocated = false ∧
        t' = ⟨t.conn, t.registered,
          Function.update t.blocks p (some (⟨path, t.conn, interfaces⟩, s))⟩) := by
  simp only [ObjectTable.step] at h
  split at h
  · cases h
  next hp =>
    cases h
    refine ⟨by simpa using hp, ?_⟩
    cases hpath : t.registered path with
    | none =>
      rcases nihDbusObjectNew_cases fails with ⟨rfl, -⟩ | ⟨hf, h1, hok, ha⟩
      · exact .inl ⟨rfl, rfl, rfl⟩
      · refine .inr ⟨(fun h => hf h.2), _, hok, ha, ?_⟩
        simp only [Option.isSome_none, Bool.false_eq_true, if_false, h1]
    | some q =>
      rcases nihDbusObjectNew_cases (fails ++ [.registerObjectPath]) with ⟨hn, -⟩ | ⟨-, h1, hok, ha⟩
      · simp at hn
      · refine .inr ⟨(fun h => nomatch h.1), _, hok, ha, ?_⟩
        simp only [Option.isSome_some, if_true, h1, Bool.false_eq_true, if_false]



/-- `nih_free` of an object succeeds exactly on a live one, and releases it. -/
theorem ObjectTable.Inv.step_free_iff (hinv : t.Inv) :
    t.step (.free p) = some t' ↔ ∃ obj, t.blocks p = some (obj, .live) ∧ t' = t.release p obj := by
  constructor
  · intro h
    simp only [ObjectTable.step] at h
    split at h
    next obj s hp =>
      split at h
      next hs =>
        obtain rfl := hinv.live_eq hp hs
        cases h
        exact ⟨obj, hp, by rw [nihFreeObject_live]; rfl⟩
      next => cases h
    next => cases h
  · rintro ⟨obj, hp, rfl⟩
    simp only [ObjectTable.step, hp, nihFreeObject_live]
    rfl

/-- libdbus dropping a path does nothing when none is registered there, and
otherwise releases the live object registered there. -/
theorem ObjectTable.Inv.step_unregister_iff (hinv : t.Inv) {path : String} :
    t.step (.unregister path) = some t' ↔
      t.registered path = none ∧ t' = t ∨
      ∃ p obj, t.registered path = some p ∧ t.blocks p = some (obj, .live) ∧ obj.path = path ∧
        t' = t.release p obj := by
  cases hreg : t.registered path with
  | none =>
    simp only [ObjectTable.step, hreg, Option.some.injEq, true_and, reduceCtorEq, false_and,
      exists_false, or_false]
    exact eq_comm
  | some p =>
    obtain ⟨obj, hb, rfl, -⟩ := hinv.registered_live _ p hreg
    have hstep : t.step (.unregister obj.path) = some (t.release p obj) := by
      simp only [ObjectTable.step, hreg, hb, unregisterObjectPath_live]
      rfl
    rw [hstep]
    constructor
    · rintro ⟨⟩
      exact .inr ⟨p, obj, rfl, hb, rfl, rfl⟩
    · rintro (⟨⟨⟩, -⟩ | ⟨q, obj', ⟨⟩, hb', -, rfl⟩)
      rw [hb] at hb'
      cases hb'
      rfl

/-! ## Every call keeps the invariant -/

theorem ObjectTable.Inv.step_new (hinv : t.Inv) {path : String}
    {interfaces : List NihDBusInterface} {fails : List ObjectNewStep}
    (h : t.step (.new p path interfaces fails) = some t') : t'.Inv := by
  obtain ⟨hp, ⟨hpath, -, rfl⟩ | ⟨-, s, hok, ha, rfl⟩⟩ := ObjectTable.step_new_cases h
  · exact hinv.register hp hpath interfaces
  · exact hinv.put_dead hp hok ha

theorem ObjectTable.Inv.step_free (hinv : t.Inv) (h : t.step (.free p) = some t') : t'.Inv := by
  obtain ⟨obj, hb, rfl⟩ := hinv.step_free_iff.1 h
  exact hinv.release hb

theorem ObjectTable.Inv.step_unregister (hinv : t.Inv) {path : String}
    (h : t.step (.unregister path) = some t') : t'.Inv := by
  rcases hinv.step_unregister_iff.1 h with ⟨-, rfl⟩ | ⟨p, obj, -, hb, -, rfl⟩
  · exact hinv
  · exact hinv.release hb

theorem ObjectTable.Inv.step (hinv : t.Inv) {c : ObjectCall} (h : t.step c = some t') :
    t'.Inv := by
  cases c with
  | new p path interfaces fails => exact hinv.step_new h
  | free p => exact hinv.step_free h
  | unregister path => exact hinv.step_unregister h

theorem ObjectTable.Reachable.inv (ht : t.Reachable) : t.Inv := by
  induction ht with
  | init conn => exact ObjectTable.inv_empty conn
  | step _ h ih => exact ih.step h

end Inv

/-! ## Over every run -/

/-- **Both release paths end in one state.** From any reachable state,
`nih_free` of a live object and libdbus dropping its path both run the
object's release once: its path leaves libdbus's table, its block is freed
and unregistered once, and nothing else changes. -/
theorem object_free_or_unregister {t : ObjectTable} (ht : t.Reachable) {p : Nat}
    {obj : NihDBusObject} {s : ObjectLife} (hp : t.blocks p = some (obj, s))
    (hs : s.allocated = true) :
    t.step (.free p) = some (t.release p obj) ∧
      t.step (.unregister obj.path) = some (t.release p obj) := by
  have hinv := ht.inv
  obtain rfl := hinv.live_eq hp hs
  exact ⟨hinv.step_free_iff.2 ⟨obj, hp, rfl⟩,
    hinv.step_unregister_iff.2 (.inr ⟨p, obj, hinv.live_registered p obj _ hp hs, hp, rfl, rfl⟩)⟩

/-- The object made at `/o` released either way. -/
theorem object_free_or_unregister_at_o :
    ∃ t, (ObjectTable.empty 0).run [.new 1 "/o" [] []] = some t ∧
      t.step (.free 1) = some (t.release 1 ⟨"/o", 0, []⟩) ∧
      t.step (.unregister "/o") = some (t.release 1 ⟨"/o", 0, []⟩) :=
  have h : (ObjectTable.empty 0).run [.new 1 "/o" [] []] = some _ := rfl
  ⟨_, h, object_free_or_unregister ((ObjectTable.Reachable.init 0).run h) (p := 1) rfl rfl⟩

/-! ## What the table is for

The exported objects, with none of the lifecycle flags: a path exports the
object made there when the path was free and nothing failed, until the object
is freed or the path dropped. libdbus's table in the model is exactly this
map after every run. -/

section Exports

variable {t t' : ObjectTable}

end Exports

section Drop

variable {t : ObjectTable}

end Drop

end NihDBus
