import Mathlib

/-!
# The watch and timeout bridge (dbus.c:489–705)

libdbus asks its host loop to watch file descriptors and to run timeouts
through three callbacks each: add, remove and toggled. `dbus.c` answers each
D-Bus watch with one `NihIoWatch` and each D-Bus timeout with one periodic
`NihTimer`, stored in the D-Bus object's data slot; enabling and disabling
moves that record onto and off the host loop's list (`nih_io_watches`,
`nih_timers`) without freeing it.

The six callbacks are one pattern at two record types, so the model has one
`HostTable` of records with `addRecord`, `removeRecord` and `toggleRecord`,
and each callback keeps its own definition under the source's name:
`nihDbusAddWatch` (with its extra `fd >= 0` check), `nihDbusRemoveWatch`,
`nihDbusWatchToggled`, `nihDbusAddTimeout`, `nihDbusRemoveTimeout`, and
`nihDbusTimeoutToggled`, which alone also re-reads the interval and re-seats
the due time.

`Bridge` pairs the two tables with what libdbus knows: which watches and
timeouts it has added, and the values it last reported for them. `Bridge.step`
runs one callback as libdbus issues it; `Bridge.Reachable` is every state a
sequence of callbacks allowed by libdbus's protocol reaches.

## Results

- `HostTable.Inv` is the bridge's invariant; `Bridge.inv_step` shows every
  callback keeps it and `Bridge.step_isSome` (restated by `Bridge.step_total`)
  that no `nih_assert` fires.
- `bridge_invariant`: in every reachable state each added watch owns exactly
  one `NihIoWatch` with the right fd and events, on the list once iff enabled;
  each added timeout owns exactly one `NihTimer` with the least whole-second
  period covering its interval, on the list once iff enabled; a removal frees
  the record and takes it off its list; every valid callback completes; and an
  add whose allocation succeeds returns TRUE and records the new object.
- `timeout_fires_early`, `timeout_first_firing`: a timer's due time counts
  from the current whole second, so its first firing can come up to 999 ms
  before the D-Bus interval has passed.
-/

namespace NihDBus

/-! ## Lists of host records -/

/-- Modelled from the spec: `nih_list_remove` (nih/list.c) cuts an entry out of
the host-loop list that holds it. -/
def nihListRemove (l : List Nat) (p : Nat) : List Nat := l.filter (· != p)

/-- Modelled from the spec: `nih_list_add` (nih/list.c) re-inserts an entry at
the end of a list, cutting it first from wherever it was, so an entry is in a
list at most once. -/
def nihListAdd (l : List Nat) (p : Nat) : List Nat := nihListRemove l p ++ [p]

@[simp] theorem count_nihListRemove_self (l : List Nat) (p : Nat) :
    (nihListRemove l p).count p = 0 :=
  List.count_eq_zero.mpr fun h => by simp [nihListRemove] at h

@[simp] theorem count_nihListRemove_ne {l : List Nat} {p q : Nat} (h : q ≠ p) :
    (nihListRemove l p).count q = l.count q :=
  List.count_filter (by simpa using h)

@[simp] theorem count_nihListAdd_self (l : List Nat) (p : Nat) : (nihListAdd l p).count p = 1 := by
  simp [nihListAdd]

@[simp] theorem count_nihListAdd_ne {l : List Nat} {p q : Nat} (h : q ≠ p) :
    (nihListAdd l p).count q = l.count q := by
  simp [nihListAdd, h, Ne.symm h]

theorem mem_nihListRemove {l : List Nat} {p q : Nat} : q ∈ nihListRemove l p → q ∈ l :=
  fun h => (List.mem_filter.mp h).1

theorem mem_nihListAdd {l : List Nat} {p q : Nat} : q ∈ nihListAdd l p → q ∈ l ∨ q = p := by
  simp only [nihListAdd, List.mem_append, List.mem_singleton]
  exact Or.imp_left mem_nihListRemove

/-! ## One table of host records -/

/-- The host side of one kind of D-Bus object: the record address held in
each object's data slot, the live records by address, and the host loop's
list of enabled records. -/
structure HostTable (R : Type) where
  data : Nat → Option Nat
  heap : Nat → Option R
  active : List Nat

namespace HostTable

variable {R : Type}

/-- No data, no records, an empty list. -/
def empty : HostTable R := ⟨fun _ => none, fun _ => none, []⟩

/-- Modelled from the spec: `nih_io_add_watch` and `nih_timer_add_periodic`
(nih/io.c, nih/timer.c) allocate a record and register it in the host loop's
list; here the record `r` at the fresh address `p`. -/
def alloc (t : HostTable R) (p : Nat) (r : R) : HostTable R :=
  { t with heap := Function.update t.heap p (some r), active := nihListAdd t.active p }

/-- Modelled from the spec: `nih_free` of a record, whose destructor cuts it
from its list. -/
def free (t : HostTable R) (p : Nat) : HostTable R :=
  { t with heap := Function.update t.heap p none, active := nihListRemove t.active p }

/-- `dbus_watch_set_data` and `dbus_timeout_set_data`: the previous data is
released through the free function it was stored with (`nih_free`). -/
def setData (t : HostTable R) (o : Nat) (d : Option Nat) : HostTable R :=
  let t' := match t.data o with
    | some q => t.free q
    | none => t
  { t' with data := Function.update t.data o d }

/-- `nih_list_remove` on a record. -/
def cut (t : HostTable R) (p : Nat) : HostTable R := { t with active := nihListRemove t.active p }

/-- `nih_list_add` of the record to the host loop's list if `enabled`,
`nih_list_remove` otherwise. -/
def relist (t : HostTable R) (p : Nat) (enabled : Bool) : HostTable R :=
  { t with active := if enabled then nihListAdd t.active p else nihListRemove t.active p }

@[simp] theorem relist_data (t : HostTable R) (p : Nat) (e : Bool) : (t.relist p e).data = t.data :=
  rfl

@[simp] theorem relist_heap (t : HostTable R) (p : Nat) (e : Bool) : (t.relist p e).heap = t.heap :=
  rfl

/-- What the two add callbacks share: assert the object has no data yet; the
add function either fails (`alloc = none`) or gives a fresh record at `p`,
stored as the object's data and cut from the list if the object is disabled.
`none` is a failed `nih_assert`. -/
def addRecord (t : HostTable R) (o : Nat) (enabled : Bool) (r : R) (alloc : Option Nat) :
    Option (Bool × HostTable R) :=
  if t.data o ≠ none then none
  else match alloc with
    | none => some (false, t)
    | some p =>
      let t := (t.alloc p r).setData o (some p)
      some (true, if enabled then t else t.cut p)

/-- What the two remove callbacks share: cut the record from its list, then
clear the data, which frees the record. -/
def removeRecord (t : HostTable R) (o : Nat) : Option (HostTable R) :=
  match t.data o with
  | none => none
  | some p => some ((t.cut p).setData o none)

/-- What the two toggled callbacks share: put the record on the list or take
it off, as the object is enabled or not. -/
def toggleRecord (t : HostTable R) (o : Nat) (enabled : Bool) : Option (HostTable R) :=
  match t.data o with
  | none => none
  | some p => some (t.relist p enabled)

/-- Change the record at `p` in place (`timer->period = …`). -/
def updateRecord (t : HostTable R) (p : Nat) (f : R → R) : HostTable R :=
  { t with heap := Function.update t.heap p ((t.heap p).map f) }

/-! ### The invariant of one table -/

variable {I : Type} {added : Nat → Option I} {enabled : I → Bool} {owner : R → Nat}
  {Matches : I → R → Prop} {t : HostTable R} {o p : Nat} {i : I} {r : R}

/-- The invariant of a table against the objects libdbus has added: each added
object's data points to a live record that names it, matches it, and is on the
list once if the object is enabled and not at all if it is disabled; objects
not added have no data; every live record is the data of the object it names;
and the list holds live records only. -/
structure Inv (t : HostTable R) (added : Nat → Option I) (enabled : I → Bool)
    (owner : R → Nat) (Matches : I → R → Prop) : Prop where
  owned : ∀ o i, added o = some i → ∃ p r, t.data o = some p ∧ t.heap p = some r ∧
    owner r = o ∧ Matches i r ∧ t.active.count p = if enabled i then 1 else 0
  unadded : ∀ o, added o = none → t.data o = none
  owner_data : ∀ p r, t.heap p = some r → t.data (owner r) = some p
  active_live : ∀ p ∈ t.active, t.heap p ≠ none

theorem inv_empty : (empty : HostTable R).Inv (fun _ => none) enabled owner Matches :=
  ⟨fun _ _ h => (by cases h), fun _ _ => rfl, fun _ _ h => (by cases h),
    fun _ h => (by cases h)⟩

/-- What `addRecord` builds when the object has no data yet. -/
theorem addRecord_eq (h : t.data o = none) (e : Bool) (r : R) (p : Nat) :
    t.addRecord o e r (some p) = some (true,
      ⟨Function.update t.data o (some p), Function.update t.heap p (some r),
        if e then nihListAdd t.active p else nihListRemove (nihListAdd t.active p) p⟩) := by
  simp only [addRecord, h, ne_eq, not_true_eq_false, ↓reduceIte, alloc, setData, cut,
    Function.update_same]
  cases e <;> rfl

/-- **Add keeps the invariant**: a fresh record for an object not yet added. -/
theorem Inv.addRecord (hinv : t.Inv added enabled owner Matches) (ho : added o = none)
    (hfresh : t.heap p = none) (hown : owner r = o) (hm : Matches i r) :
    Inv ⟨Function.update t.data o (some p), Function.update t.heap p (some r),
        if enabled i then nihListAdd t.active p else nihListRemove (nihListAdd t.active p) p⟩
      (Function.update added o (some i)) enabled owner Matches := by
  have hdo := hinv.unadded o ho
  constructor <;> dsimp only
  · intro o' i' hi'
    by_cases h : o' = o
    · subst h
      simp only [Function.update_same, Option.some.injEq] at hi' ⊢
      subst hi'
      refine ⟨p, r, rfl, by simp, hown, hm, ?_⟩
      split_ifs <;> simp
    · rw [Function.update_noteq h] at hi'
      obtain ⟨p', r', hp', hr', ho', hm', hc⟩ := hinv.owned o' i' hi'
      have hne : p' ≠ p := by rintro rfl; rw [hfresh] at hr'; cases hr'
      refine ⟨p', r', by simpa [h] using hp', by simpa [hne] using hr', ho', hm', ?_⟩
      rw [← hc]; split_ifs <;> simp [hne]
  · intro o' h'
    by_cases h : o' = o
    · subst h; simp at h'
    · rw [Function.update_noteq h] at h' ⊢; exact hinv.unadded o' h'
  · intro q r' hq
    by_cases h : q = p
    · subst h
      obtain rfl : r = r' := by simpa using hq
      rw [hown, Function.update_same]
    · rw [Function.update_noteq h] at hq
      have hd := hinv.owner_data q r' hq
      have : owner r' ≠ o := fun e => by rw [e, hdo] at hd; cases hd
      rw [Function.update_noteq this, hd]
  · intro q hq
    by_cases h : q = p
    · subst h; simp
    · rw [Function.update_noteq h]
      have : q ∈ nihListAdd t.active p := by
        split_ifs at hq
        · exact hq
        · exact mem_nihListRemove hq
      exact hinv.active_live q ((mem_nihListAdd this).resolve_right h)

theorem mem_nihListRemove_ne {l : List Nat} {p q : Nat} (h : q ∈ nihListRemove l p) :
    q ≠ p := by
  simpa using (List.mem_filter.mp h).2

/-- The record an added object holds names it and matches it. -/
theorem Inv.record (hinv : t.Inv added enabled owner Matches) (hi : added o = some i)
    (hp : t.data o = some p) : ∃ r, t.heap p = some r ∧ owner r = o ∧ Matches i r := by
  obtain ⟨p', r, hp', hr, ho, hm, -⟩ := hinv.owned o i hi
  rw [hp] at hp'; cases hp'
  exact ⟨r, hr, ho, hm⟩

/-- Whatever an object's data points to is a live record naming it. -/
theorem Inv.owner_of_data (hinv : t.Inv added enabled owner Matches) (hp : t.data o = some p) :
    ∃ r, t.heap p = some r ∧ owner r = o := by
  cases hi : added o with
  | none => rw [hinv.unadded o hi] at hp; cases hp
  | some i => obtain ⟨r, hr, ho, -⟩ := hinv.record hi hp; exact ⟨r, hr, ho⟩

/-- Two objects never hold the same record. -/
theorem Inv.data_inj (hinv : t.Inv added enabled owner Matches) {o' : Nat}
    (hp : t.data o = some p) (hp' : t.data o' = some p) : o' = o := by
  obtain ⟨r, hr, ho⟩ := hinv.owner_of_data hp
  obtain ⟨r', hr', ho'⟩ := hinv.owner_of_data hp'
  rw [hr] at hr'; cases hr'
  exact ho'.symm.trans ho

/-- What `removeRecord` leaves when the object holds the record at `p`. -/
theorem removeRecord_eq (h : t.data o = some p) :
    t.removeRecord o = some ⟨Function.update t.data o none, Function.update t.heap p none,
      nihListRemove (nihListRemove t.active p) p⟩ := by
  simp [removeRecord, h, setData, cut, free]

/-- **Remove keeps the invariant** for the objects still added. -/
theorem Inv.removeRecord (hinv : t.Inv added enabled owner Matches) (hp : t.data o = some p) :
    Inv ⟨Function.update t.data o none, Function.update t.heap p none,
        nihListRemove (nihListRemove t.active p) p⟩
      (Function.update added o none) enabled owner Matches := by
  constructor <;> dsimp only
  · intro o' i' hi'
    have h : o' ≠ o := by rintro rfl; simp at hi'
    rw [Function.update_noteq h] at hi'
    obtain ⟨p', r', hp', hr', ho', hm', hc⟩ := hinv.owned o' i' hi'
    have hne : p' ≠ p := fun e => h (hinv.data_inj hp (e ▸ hp'))
    refine ⟨p', r', by rwa [Function.update_noteq h], by rwa [Function.update_noteq hne], ho',
      hm', ?_⟩
    rw [count_nihListRemove_ne hne, count_nihListRemove_ne hne, hc]
  · intro o' h'
    by_cases h : o' = o
    · subst h; simp
    · rw [Function.update_noteq h] at h' ⊢; exact hinv.unadded o' h'
  · intro q r' hq
    have hq' : q ≠ p := by rintro rfl; simp at hq
    rw [Function.update_noteq hq'] at hq
    have hd := hinv.owner_data q r' hq
    have : owner r' ≠ o := fun e => hq' (by rw [e, hp] at hd; exact (Option.some.inj hd).symm)
    rw [Function.update_noteq this, hd]
  · intro q hq
    rw [Function.update_noteq (mem_nihListRemove_ne hq)]
    exact hinv.active_live q (mem_nihListRemove (mem_nihListRemove hq))

theorem updateRecord_id (t : HostTable R) (p : Nat) : t.updateRecord p id = t := by
  cases t; simp [updateRecord]

/-- **Toggling keeps the invariant**: the record goes on the list once or comes
off it as `i'` says, and may be changed in place by `f` to match `i'`. With
`f = id` this is `nih_dbus_watch_toggled`; `nih_dbus_timeout_toggled` also
re-seats the period. -/
theorem Inv.toggle (hinv : t.Inv added enabled owner Matches) (hi : added o = some i)
    (hp : t.data o = some p) (i' : I) (f : R → R) (hown : ∀ r, owner (f r) = owner r)
    (hm : ∀ r, t.heap p = some r → Matches i' (f r)) :
    Inv ((t.relist p (enabled i')).updateRecord p f)
      (Function.update added o (some i')) enabled owner Matches := by
  obtain ⟨r, hr, ho, -⟩ := hinv.record hi hp
  have hlist : ∀ q ∈ (t.relist p (enabled i')).active, q ∈ t.active ∨ q = p := by
    intro q hq; simp only [relist] at hq; split_ifs at hq
    · exact mem_nihListAdd hq
    · exact .inl (mem_nihListRemove hq)
  have hcount : ∀ q, q ≠ p → (t.relist p (enabled i')).active.count q = t.active.count q := by
    intro q hq; simp only [relist]; split_ifs <;> simp [hq]
  constructor <;> simp only [updateRecord, relist_data, relist_heap]
  · intro o' i'' hi''
    by_cases h : o' = o
    · subst h
      simp only [Function.update_same, Option.some.injEq] at hi''
      subst hi''
      refine ⟨p, f r, hp, by simp [hr], by rw [hown, ho], hm r hr, ?_⟩
      simp only [relist]; split_ifs <;> simp
    · rw [Function.update_noteq h] at hi''
      obtain ⟨p', r', hp', hr', ho', hm', hc⟩ := hinv.owned o' i'' hi''
      have hne : p' ≠ p := fun e => h (hinv.data_inj hp (e ▸ hp'))
      exact ⟨p', r', hp', by simp [hne, hr'], ho', hm', by rw [hcount p' hne, hc]⟩
  · intro o' h'
    have h : o' ≠ o := by rintro rfl; simp at h'
    rw [Function.update_noteq h] at h'
    exact hinv.unadded o' h'
  · intro q r' hq
    by_cases h : q = p
    · subst h
      simp only [Function.update_same, hr, Option.map_some', Option.some.injEq] at hq
      rw [← hq, hown, ho, hp]
    · exact hinv.owner_data q r' (by simpa [h] using hq)
  · intro q hq
    by_cases h : q = p
    · subst h; simp [hr]
    · rw [Function.update_noteq h]
      exact hinv.active_live q ((hlist q hq).resolve_right h)

end HostTable

/-! ## Watches -/

/-- `NihIoEvents`: the events an `NihIoWatch` waits for. -/
structure NihIoEvents where
  read : Bool
  write : Bool
  except : Bool
  deriving DecidableEq, Repr

/-- A D-Bus watch as libdbus reports it at a callback: its descriptor, whether
it is `DBUS_WATCH_READABLE` and `DBUS_WATCH_WRITABLE`, and whether it is
enabled. -/
structure DBusWatch where
  fd : Int
  readable : Bool
  writable : Bool
  enabled : Bool

/-- An `NihIoWatch`: a descriptor, its events, and the D-Bus watch it serves
(the watcher's data). -/
structure NihIoWatch where
  fd : Int
  events : NihIoEvents
  watch : Nat

/-- The events `nih_dbus_add_watch` asks for: `NIH_IO_EXCEPT`, plus
`NIH_IO_READ` and `NIH_IO_WRITE` as the watch is readable and writable. -/
def nihDbusWatchEvents (watch : DBusWatch) : NihIoEvents :=
  let events : NihIoEvents := ⟨false, false, true⟩
  let events := if watch.readable then { events with read := true } else events
  if watch.writable then { events with write := true } else events

@[simp] theorem nihDbusWatchEvents_eq (watch : DBusWatch) :
    nihDbusWatchEvents watch = ⟨watch.readable, watch.writable, true⟩ := by
  unfold nihDbusWatchEvents; cases watch.readable <;> cases watch.writable <;> rfl

/-- `nih_dbus_add_watch` on the watch `w`: `alloc` is what `nih_io_add_watch`
returns. `none` is a failed `nih_assert`; otherwise whether the watch was
added, and the table after. -/
def nihDbusAddWatch (t : HostTable NihIoWatch) (w : Nat) (watch : DBusWatch)
    (alloc : Option Nat) : Option (Bool × HostTable NihIoWatch) :=
  if watch.fd < 0 then none
  else t.addRecord w watch.enabled ⟨watch.fd, nihDbusWatchEvents watch, w⟩ alloc

/-- `nih_dbus_remove_watch`. -/
def nihDbusRemoveWatch (t : HostTable NihIoWatch) (w : Nat) : Option (HostTable NihIoWatch) :=
  t.removeRecord w

/-- `nih_dbus_watch_toggled`, with the enabled state libdbus reports. -/
def nihDbusWatchToggled (t : HostTable NihIoWatch) (w : Nat) (enabled : Bool) :
    Option (HostTable NihIoWatch) :=
  t.toggleRecord w enabled

/-- The flags `dbus_watch_handle` gets from a host event. -/
structure DBusWatchFlags where
  readable : Bool
  writable : Bool
  error : Bool

/-- `nih_dbus_watcher`: host events translated back to D-Bus flags. -/
def nihDbusWatcher (events : NihIoEvents) : DBusWatchFlags :=
  ⟨events.read, events.write, events.except⟩

/-! ## Timeouts -/

/-- A D-Bus timeout as libdbus reports it at a callback: an `int` interval in
milliseconds, never negative, and whether it is enabled. -/
structure DBusTimeout where
  interval : Int
  enabled : Bool
  interval_range : 0 ≤ interval ∧ interval ≤ 2147483647

/-- A periodic `NihTimer`: its period and due time in seconds, and the D-Bus
timeout it serves. -/
structure NihTimer where
  period : Int
  due : Int
  timeout : Nat

/-- The period `dbus.c` gives a timer for an interval in milliseconds:
`(interval - 1) / 1000 + 1`, with C's division truncating toward zero. -/
def timerPeriod (interval : Int) : Int := Int.tdiv (interval - 1) 1000 + 1

/-- Modelled from the spec: the record `nih_timer_add_periodic` (nih/timer.c)
makes, due one period after `time (NULL)`. -/
def nihTimerAddPeriodic (period now : Int) (timeout : Nat) : NihTimer :=
  ⟨period, now + period, timeout⟩

/-- `nih_dbus_add_timeout` on the timeout `o` at `time (NULL) = now`. -/
def nihDbusAddTimeout (t : HostTable NihTimer) (o : Nat) (timeout : DBusTimeout) (now : Int)
    (alloc : Option Nat) : Option (Bool × HostTable NihTimer) :=
  t.addRecord o timeout.enabled (nihTimerAddPeriodic (timerPeriod timeout.interval) now o) alloc

/-- `nih_dbus_remove_timeout`. -/
def nihDbusRemoveTimeout (t : HostTable NihTimer) (o : Nat) : Option (HostTable NihTimer) :=
  t.removeRecord o

/-- `nih_dbus_timeout_toggled` at `time (NULL) = now`: the list move of the
other toggles, then the interval re-read into the period and the due time
re-seated. -/
def nihDbusTimeoutToggled (t : HostTable NihTimer) (o : Nat) (timeout : DBusTimeout)
    (now : Int) : Option (HostTable NihTimer) :=
  match t.data o with
  | none => none
  | some p =>
    let period := timerPeriod timeout.interval
    some ((t.relist p timeout.enabled).updateRecord p fun r =>
      { r with period, due := now + period })

/-- The period is the least whole number of seconds, at least one, that
covers the interval. -/
theorem timerPeriod_least {i : Int} (h : 0 ≤ i) :
    1 ≤ timerPeriod i ∧ i ≤ 1000 * timerPeriod i ∧
      ∀ n, 1 ≤ n → i ≤ 1000 * n → timerPeriod i ≤ n := by
  rcases (show i = 0 ∨ 1 ≤ i by omega) with rfl | h1
  · refine ⟨by decide, by decide, fun n hn _ => ?_⟩
    have : timerPeriod 0 = 1 := by decide
    omega
  · have : timerPeriod i = (i - 1) / 1000 + 1 := by
      rw [timerPeriod, Int.tdiv_eq_ediv (by omega) (by decide)]
    rw [this]
    refine ⟨by omega, by omega, fun n _ hn => by omega⟩

/-! ## The bridge as libdbus drives it -/

/-- The watch and timeout tables, and what libdbus knows: the watches and
timeouts it has added, with the values it last reported for them. -/
structure Bridge where
  watches : Nat → Option DBusWatch
  timeouts : Nat → Option DBusTimeout
  ioWatches : HostTable NihIoWatch
  timers : HostTable NihTimer

/-- Nothing added yet. -/
def Bridge.init : Bridge := ⟨fun _ => none, fun _ => none, .empty, .empty⟩

/-- The callbacks libdbus makes, with what it reports at each: the watch or
timeout and, for an add, what the host's allocation returns. -/
inductive BridgeCall
  | addWatch (w : Nat) (watch : DBusWatch) (alloc : Option Nat)
  | removeWatch (w : Nat)
  | watchToggled (w : Nat) (enabled : Bool)
  | addTimeout (o : Nat) (timeout : DBusTimeout) (now : Int) (alloc : Option Nat)
  | removeTimeout (o : Nat)
  | timeoutToggled (o : Nat) (timeout : DBusTimeout) (now : Int)

/-- One callback: the bridge's answer, and libdbus recording an add that
succeeded, a removal, or the new state of a toggled object. `none` is a failed
`nih_assert`. -/
def Bridge.step (b : Bridge) : BridgeCall → Option Bridge
  | .addWatch w watch alloc => (nihDbusAddWatch b.ioWatches w watch alloc).map fun r =>
    { b with ioWatches := r.2,
             watches := if r.1 then Function.update b.watches w (some watch) else b.watches }
  | .removeWatch w => (nihDbusRemoveWatch b.ioWatches w).map fun t =>
    { b with ioWatches := t, watches := Function.update b.watches w none }
  | .watchToggled w e => (nihDbusWatchToggled b.ioWatches w e).map fun t =>
    { b with ioWatches := t,
             watches := Function.update b.watches w ((b.watches w).map ({ · with enabled := e })) }
  | .addTimeout o timeout now alloc => (nihDbusAddTimeout b.timers o timeout now alloc).map fun r =>
    { b with timers := r.2,
             timeouts := if r.1 then Function.update b.timeouts o (some timeout) else b.timeouts }
  | .removeTimeout o => (nihDbusRemoveTimeout b.timers o).map fun t =>
    { b with timers := t, timeouts := Function.update b.timeouts o none }
  | .timeoutToggled o timeout now => (nihDbusTimeoutToggled b.timers o timeout now).map fun t =>
    { b with timers := t, timeouts := Function.update b.timeouts o (some timeout) }

/-- The calls libdbus makes: an add only for an object it has not added, on a
real descriptor, with the host's allocator returning a free address; a toggle
or a remove only for an object it has added. -/
def BridgeCall.Valid (b : Bridge) : BridgeCall → Prop
  | .addWatch w watch alloc =>
    b.watches w = none ∧ 0 ≤ watch.fd ∧ ∀ p ∈ alloc, b.ioWatches.heap p = none
  | .removeWatch w | .watchToggled w _ => b.watches w ≠ none
  | .addTimeout o _ _ alloc => b.timeouts o = none ∧ ∀ p ∈ alloc, b.timers.heap p = none
  | .removeTimeout o | .timeoutToggled o _ _ => b.timeouts o ≠ none

/-- Every state a sequence of valid callbacks reaches from `Bridge.init`. -/
inductive Bridge.Reachable : Bridge → Prop
  | init : Reachable Bridge.init
  | step {b b' : Bridge} {c : BridgeCall} :
      Reachable b → c.Valid b → b.step c = some b' → Reachable b'

/-- A watch's record: its descriptor and the events it asks for. -/
def WatchMatches (watch : DBusWatch) (r : NihIoWatch) : Prop :=
  r.fd = watch.fd ∧ r.events = nihDbusWatchEvents watch

/-- A timeout's record: the period of its interval. -/
def TimerMatches (timeout : DBusTimeout) (r : NihTimer) : Prop :=
  r.period = timerPeriod timeout.interval

/-- The bridge's invariant: both tables against what libdbus has added. -/
def Bridge.Inv (b : Bridge) : Prop :=
  b.ioWatches.Inv b.watches DBusWatch.enabled NihIoWatch.watch WatchMatches ∧
    b.timers.Inv b.timeouts DBusTimeout.enabled NihTimer.timeout TimerMatches

theorem Bridge.inv_init : Bridge.init.Inv := ⟨HostTable.inv_empty, HostTable.inv_empty⟩

/-- What `nih_dbus_add_watch` answers from a state with the invariant: it
returns, and answers TRUE, with the watch's data at the new record, exactly
when the host's allocation succeeds. -/
theorem Bridge.Inv.addWatch_answer {b : Bridge} (hinv : b.Inv) {w : Nat} {watch : DBusWatch}
    {alloc : Option Nat} (hc : (BridgeCall.addWatch w watch alloc).Valid b) :
    ∃ t, nihDbusAddWatch b.ioWatches w watch alloc = some (alloc.isSome, t) ∧ t.data w = alloc := by
  have hd := hinv.1.unadded w hc.1
  have hfd : ¬ watch.fd < 0 := by have := hc.2.1; omega
  cases alloc with
  | none => exact ⟨b.ioWatches, by simp [nihDbusAddWatch, HostTable.addRecord, hd, hfd], hd⟩
  | some p =>
    rw [nihDbusAddWatch, if_neg hfd, HostTable.addRecord_eq hd]
    exact ⟨_, rfl, Function.update_same _ _ _⟩

/-- What `nih_dbus_add_timeout` answers from a state with the invariant, as for
watches. -/
theorem Bridge.Inv.addTimeout_answer {b : Bridge} (hinv : b.Inv) {o : Nat}
    {timeout : DBusTimeout} {now : Int} {alloc : Option Nat}
    (hc : (BridgeCall.addTimeout o timeout now alloc).Valid b) :
    ∃ t, nihDbusAddTimeout b.timers o timeout now alloc = some (alloc.isSome, t) ∧
      t.data o = alloc := by
  have hd := hinv.2.unadded o hc.1
  cases alloc with
  | none => exact ⟨b.timers, by simp [nihDbusAddTimeout, HostTable.addRecord, hd], hd⟩
  | some p =>
    rw [nihDbusAddTimeout, HostTable.addRecord_eq hd]
    exact ⟨_, rfl, Function.update_same _ _ _⟩

/-- From a state with the invariant, every call libdbus can make returns. -/
theorem Bridge.step_isSome {b : Bridge} {c : BridgeCall} (hinv : b.Inv) (hc : c.Valid b) :
    (b.step c).isSome := by
  cases c with
  | addWatch w watch alloc =>
    obtain ⟨t, h, -⟩ := hinv.addWatch_answer hc
    simp [step, h]
  | removeWatch w | watchToggled w _ =>
    obtain ⟨i, hi⟩ := Option.ne_none_iff_exists'.mp hc
    obtain ⟨p, -, hp, -⟩ := hinv.1.owned w i hi
    simp [step, nihDbusRemoveWatch, nihDbusWatchToggled, HostTable.removeRecord,
      HostTable.toggleRecord, hp]
  | addTimeout o _ _ alloc =>
    obtain ⟨t, h, -⟩ := hinv.addTimeout_answer hc
    simp [step, h]
  | removeTimeout o | timeoutToggled o _ _ =>
    obtain ⟨i, hi⟩ := Option.ne_none_iff_exists'.mp hc
    obtain ⟨p, -, hp, -⟩ := hinv.2.owned o i hi
    simp [step, nihDbusRemoveTimeout, nihDbusTimeoutToggled, HostTable.removeRecord, hp]

/-- **No `nih_assert` fires**: from a state with the invariant, every call
libdbus can make returns. -/
theorem Bridge.step_total {b : Bridge} {c : BridgeCall} (hinv : b.Inv) (hc : c.Valid b) :
    ∃ b', b.step c = some b' :=
  Option.isSome_iff_exists.mp (Bridge.step_isSome hinv hc)

/-- **Every callback keeps the invariant.** -/
theorem Bridge.inv_step {b b' : Bridge} {c : BridgeCall} (hinv : b.Inv) (hc : c.Valid b)
    (h : b.step c = some b') : b'.Inv := by
  cases c with
  | addWatch w watch alloc =>
    have hd := hinv.1.unadded w hc.1
    have hfd : ¬ watch.fd < 0 := by have := hc.2.1; omega
    cases alloc with
    | none =>
      simp [step, nihDbusAddWatch, HostTable.addRecord, hd, hfd] at h
      subst h; exact hinv
    | some p =>
      simp only [step, nihDbusAddWatch, hfd, ↓reduceIte, HostTable.addRecord_eq hd,
        Option.map_some', Option.some.injEq] at h
      subst h
      exact ⟨hinv.1.addRecord hc.1 (hc.2.2 p rfl) rfl ⟨rfl, rfl⟩, hinv.2⟩
  | removeWatch w =>
    obtain ⟨i, hi⟩ := Option.ne_none_iff_exists'.mp hc
    obtain ⟨p, -, hp, -⟩ := hinv.1.owned w i hi
    simp only [step, nihDbusRemoveWatch, HostTable.removeRecord_eq hp, Option.map_some',
      Option.some.injEq] at h
    subst h
    exact ⟨hinv.1.removeRecord hp, hinv.2⟩
  | watchToggled w e =>
    obtain ⟨i, hi⟩ := Option.ne_none_iff_exists'.mp hc
    obtain ⟨p, -, hp, -⟩ := hinv.1.owned w i hi
    simp only [step, nihDbusWatchToggled, HostTable.toggleRecord, hp, Option.map_some',
      Option.some.injEq, hi] at h
    subst h
    have := hinv.1.toggle hi hp { i with enabled := e } id (fun _ => rfl) fun r hr => by
      obtain ⟨r', hr', -, hm⟩ := hinv.1.record hi hp
      rw [hr] at hr'; cases hr'
      simpa [WatchMatches] using hm
    rw [HostTable.updateRecord_id] at this
    exact ⟨this, hinv.2⟩
  | addTimeout o timeout now alloc =>
    have hd := hinv.2.unadded o hc.1
    cases alloc with
    | none =>
      simp [step, nihDbusAddTimeout, HostTable.addRecord, hd] at h
      subst h; exact hinv
    | some p =>
      simp only [step, nihDbusAddTimeout, HostTable.addRecord_eq hd, Option.map_some',
        Option.some.injEq] at h
      subst h
      exact ⟨hinv.1, hinv.2.addRecord hc.1 (hc.2 p rfl) rfl rfl⟩
  | removeTimeout o =>
    obtain ⟨i, hi⟩ := Option.ne_none_iff_exists'.mp hc
    obtain ⟨p, -, hp, -⟩ := hinv.2.owned o i hi
    simp only [step, nihDbusRemoveTimeout, HostTable.removeRecord_eq hp, Option.map_some',
      Option.some.injEq] at h
    subst h
    exact ⟨hinv.1, hinv.2.removeRecord hp⟩
  | timeoutToggled o timeout now =>
    obtain ⟨i, hi⟩ := Option.ne_none_iff_exists'.mp hc
    obtain ⟨p, -, hp, -⟩ := hinv.2.owned o i hi
    simp only [step, nihDbusTimeoutToggled, hp, Option.map_some', Option.some.injEq] at h
    subst h
    exact ⟨hinv.1, hinv.2.toggle hi hp timeout _ (fun _ => rfl) fun _ _ => rfl⟩

theorem Bridge.Reachable.inv {b : Bridge} (h : b.Reachable) : b.Inv := by
  induction h with
  | init => exact Bridge.inv_init
  | step _ hc hs ih => exact Bridge.inv_step ih hc hs

/-- A watch added, then disabled: the toggle returns. -/
theorem Bridge.step_total_toggle_added :
    ∃ b₁ b₂, Bridge.init.step (.addWatch 0 ⟨3, true, false, true⟩ (some 0)) = some b₁ ∧
      b₁.step (.watchToggled 0 false) = some b₂ :=
  have h₁ : Bridge.init.step (.addWatch 0 ⟨3, true, false, true⟩ (some 0)) = some _ := rfl
  have ⟨_, h₂⟩ := Bridge.step_total (c := .watchToggled 0 false)
    (Bridge.inv_step (c := .addWatch 0 ⟨3, true, false, true⟩ (some 0)) Bridge.inv_init
      ⟨rfl, by decide, fun _ _ => rfl⟩ h₁) (Option.some_ne_none _)
  ⟨_, _, h₁, h₂⟩

/-- **The bridge over every run** (dbus.c:489–705). In every state libdbus's
callbacks reach: each added watch owns exactly one `NihIoWatch`, on its
descriptor, waiting for `NIH_IO_EXCEPT` plus read and write as the watch is
readable and writable, on `nih_io_watches` once if the watch is enabled and
not at all if not; each added timeout owns exactly one `NihTimer` whose period
is the least whole number of seconds, at least one, covering its interval,
on `nih_timers` once iff the timeout is enabled; removing a watch or a
timeout frees its record and leaves it on no list; every callback libdbus can
make returns, so every toggle takes effect; and an add answers TRUE, with the
object's data at the new record, exactly when the host's allocation
succeeds, so libdbus records the object as added exactly then. -/
theorem bridge_invariant {b : Bridge} (hb : b.Reachable) :
    (∀ w watch, b.watches w = some watch → ∃ p r, b.ioWatches.data w = some p ∧
      b.ioWatches.heap p = some r ∧ (∀ q r', b.ioWatches.heap q = some r' → r'.watch = w → q = p) ∧
      r.fd = watch.fd ∧ r.events = ⟨watch.readable, watch.writable, true⟩ ∧
      b.ioWatches.active.count p = if watch.enabled then 1 else 0) ∧
    (∀ o timeout, b.timeouts o = some timeout → ∃ p r, b.timers.data o = some p ∧
      b.timers.heap p = some r ∧ (∀ q r', b.timers.heap q = some r' → r'.timeout = o → q = p) ∧
      (1 ≤ r.period ∧ timeout.interval ≤ 1000 * r.period ∧
        ∀ n, 1 ≤ n → timeout.interval ≤ 1000 * n → r.period ≤ n) ∧
      b.timers.active.count p = if timeout.enabled then 1 else 0) ∧
    (∀ w p b', b.ioWatches.data w = some p → b.step (.removeWatch w) = some b' →
      b'.ioWatches.heap p = none ∧ p ∉ b'.ioWatches.active ∧
      ∀ q r, b'.ioWatches.heap q = some r → r.watch ≠ w) ∧
    (∀ o p b', b.timers.data o = some p → b.step (.removeTimeout o) = some b' →
      b'.timers.heap p = none ∧ p ∉ b'.timers.active ∧
      ∀ q r, b'.timers.heap q = some r → r.timeout ≠ o) ∧
    (∀ c, c.Valid b → ∃ b', b.step c = some b') ∧
    (∀ w watch alloc, (BridgeCall.addWatch w watch alloc).Valid b →
      ∃ t, nihDbusAddWatch b.ioWatches w watch alloc = some (alloc.isSome, t) ∧ t.data w = alloc) ∧
    (∀ o timeout now alloc, (BridgeCall.addTimeout o timeout now alloc).Valid b →
      ∃ t, nihDbusAddTimeout b.timers o timeout now alloc = some (alloc.isSome, t) ∧
        t.data o = alloc) := by
  have hinv := hb.inv
  have hw := hinv.1
  have ht := hinv.2
  refine ⟨fun w watch hi => ?_, fun o timeout hi => ?_, fun w p b' hp h => ?_,
    fun o p b' hp h => ?_, fun c hc => Option.isSome_iff_exists.mp (Bridge.step_isSome hinv hc),
    fun _ _ _ hc => hinv.addWatch_answer hc, fun _ _ _ _ hc => hinv.addTimeout_answer hc⟩
  · obtain ⟨p, r, hp, hr, ho, ⟨hfd, hev⟩, hc⟩ := hw.owned w watch hi
    refine ⟨p, r, hp, hr, fun q r' hq hq' => ?_, hfd, by simpa using hev, hc⟩
    have := hw.owner_data q r' hq
    rw [hq', hp] at this
    exact (Option.some.inj this).symm
  · obtain ⟨p, r, hp, hr, ho, hm, hc⟩ := ht.owned o timeout hi
    refine ⟨p, r, hp, hr, fun q r' hq hq' => ?_,
      hm ▸ timerPeriod_least timeout.interval_range.1, hc⟩
    have := ht.owner_data q r' hq
    rw [hq', hp] at this
    exact (Option.some.inj this).symm
  · simp only [Bridge.step, nihDbusRemoveWatch, HostTable.removeRecord_eq hp, Option.map_some',
      Option.some.injEq] at h
    subst h
    refine ⟨by simp, fun hm => HostTable.mem_nihListRemove_ne hm rfl, fun q r hq hrw => ?_⟩
    have hq' : q ≠ p := by rintro rfl; simp at hq
    simp only [Function.update_noteq hq'] at hq
    have := hw.owner_data q r hq
    rw [hrw, hp] at this
    exact hq' (Option.some.inj this).symm
  · simp only [Bridge.step, nihDbusRemoveTimeout, HostTable.removeRecord_eq hp, Option.map_some',
      Option.some.injEq] at h
    subst h
    refine ⟨by simp, fun hm => HostTable.mem_nihListRemove_ne hm rfl, fun q r hq hrw => ?_⟩
    have hq' : q ≠ p := by rintro rfl; simp at hq
    simp only [Function.update_noteq hq'] at hq
    have := ht.owner_data q r hq
    rw [hrw, hp] at this
    exact hq' (Option.some.inj this).symm

/-- The state after adding a watch and a timeout of 1500 ms and disabling the
timeout: the timer has a period of two seconds and is off the list; removing
the watch then frees its record. -/
theorem bridge_invariant_run :
    ∃ b b' : Bridge, b.Reachable ∧ b.watches 0 = some ⟨3, true, false, true⟩ ∧
      b.timeouts 0 = some ⟨1500, false, by decide⟩ ∧
      (∃ p r, b.timers.data 0 = some p ∧ b.timers.heap p = some r ∧ r.period = 2 ∧
        b.timers.active.count p = 0) ∧
      b.step (.removeWatch 0) = some b' ∧ b'.ioWatches.heap 0 = none ∧
      0 ∉ b'.ioWatches.active := by
  have hb : Bridge.Reachable _ :=
    .step (c := .timeoutToggled 0 ⟨1500, false, by decide⟩ 1)
      (.step (c := .addTimeout 0 ⟨1500, true, by decide⟩ 0 (some 0))
        (.step (c := .addWatch 0 ⟨3, true, false, true⟩ (some 0)) .init
          ⟨rfl, by decide, fun _ _ => rfl⟩ rfl)
        ⟨rfl, fun _ _ => rfl⟩ rfl)
      (Option.some_ne_none _) rfl
  obtain ⟨-, htimer, hrem, -, htotal, -⟩ := bridge_invariant hb
  obtain ⟨b', h⟩ := htotal (.removeWatch 0) (Option.some_ne_none _)
  obtain ⟨hfree, hlist, -⟩ := hrem 0 0 b' rfl h
  obtain ⟨p, r, hp, hr, -, ⟨-, h2, h3⟩, hc⟩ := htimer 0 ⟨1500, false, by decide⟩ rfl
  have h2' : 1500 ≤ 1000 * r.period := h2
  have h3' := h3 2 (by decide) (by decide)
  exact ⟨_, b', hb, rfl, rfl, ⟨p, r, hp, hr, by omega, hc⟩, h, hfree, hlist⟩

/-! ## When a timeout first fires

The host loop that fires timers lives in `nih/main.c` and `nih/timer.c`,
outside the repository; it is modelled as the spec describes it, over a wall
clock counted in milliseconds. -/

/-- Modelled from the spec: `time (NULL)` at the instant `t`, in milliseconds. -/
def timeNull (t : Int) : Int := t / 1000

/-- Modelled from the spec: the instant the host loop fires a timer due at
second `due` that was armed at the instant `t0`: the first `t ≥ t0` with
`time (NULL) ≥ due`. -/
def firstFiring (due t0 : Int) : Int := max t0 (1000 * due)

/-- `firstFiring` is the first instant from `t0` on at which the timer is due. -/
theorem firstFiring_spec (due t0 : Int) :
    t0 ≤ firstFiring due t0 ∧ due ≤ timeNull (firstFiring due t0) ∧
      ∀ t, t0 ≤ t → due ≤ timeNull t → firstFiring due t0 ≤ t := by
  simp only [firstFiring, timeNull]
  refine ⟨le_max_left _ _, ?_, fun t h1 h2 => max_le h1 (by omega)⟩
  rcases le_total t0 (1000 * due) with h | h
  · rw [max_eq_right h]; omega
  · rw [max_eq_left h]; omega

/-- The `NihTimer` the bridge holds for the timeout `o`. -/
def Bridge.timerOf (b : Bridge) (o : Nat) : Option NihTimer :=
  (b.timers.data o).bind b.timers.heap

/-- An add or a toggle at `time (NULL) = now` leaves the timeout's timer with
the period of its interval, due one period after `now`. -/
theorem Bridge.due_of_step {b b' : Bridge} {c : BridgeCall} {o : Nat} {timeout : DBusTimeout}
    {now : Int} {r : NihTimer}
    (hc : (∃ alloc, c = .addTimeout o timeout now alloc) ∨ c = .timeoutToggled o timeout now)
    (hs : b.step c = some b') (hr : b'.timerOf o = some r) :
    r.period = timerPeriod timeout.interval ∧ r.due = now + timerPeriod timeout.interval := by
  rcases hc with ⟨alloc, rfl⟩ | rfl
  · by_cases hd : b.timers.data o = none
    · cases alloc with
      | none =>
        simp only [step, nihDbusAddTimeout, HostTable.addRecord, hd, ne_eq, not_true_eq_false,
          ↓reduceIte, Option.map_some', Option.some.injEq] at hs
        subst hs
        simp [timerOf, hd] at hr
      | some p =>
        simp only [step, nihDbusAddTimeout, HostTable.addRecord_eq hd, Option.map_some',
          Option.some.injEq] at hs
        subst hs
        simp only [timerOf, Function.update_same, Option.some_bind, Option.some.injEq] at hr
        subst hr
        exact ⟨rfl, rfl⟩
    · simp [step, nihDbusAddTimeout, HostTable.addRecord, hd] at hs
  · cases hd : b.timers.data o with
    | none => simp [step, nihDbusTimeoutToggled, hd] at hs
    | some p =>
      simp only [step, nihDbusTimeoutToggled, hd, Option.map_some', Option.some.injEq] at hs
      subst hs
      simp only [timerOf, HostTable.updateRecord, HostTable.relist_data, hd, Option.some_bind,
        HostTable.relist_heap, Function.update_same, Option.map_eq_some'] at hr
      obtain ⟨_, -, rfl⟩ := hr
      exact ⟨rfl, rfl⟩

/-- A timeout of one second added 999 ms into a second fires 1 ms later. -/
theorem timeout_fires_early :
    ∃ b' r, Bridge.init.step (.addTimeout 0 ⟨1000, true, by decide⟩ (timeNull 999) (some 0)) =
      some b' ∧ b'.timerOf 0 = some r ∧ firstFiring r.due 999 - 999 = 1 :=
  ⟨_, _, rfl, rfl, by decide⟩

/-- **When a timeout first fires** (dbus.c:621–705). After an add or a toggle
at the instant `t0` the timer fires `1000 * period - t0 % 1000` ms later: less
than a second before its interval has passed, and not before it exactly when
`t0 % 1000` is at most the slack `1000 * period - interval`, which holds
whenever `t0` falls on a whole second. -/
theorem timeout_first_firing {b b' : Bridge} {c : BridgeCall} {o : Nat}
    {timeout : DBusTimeout} {t0 : Int} {r : NihTimer}
    (hc : (∃ alloc, c = .addTimeout o timeout (timeNull t0) alloc) ∨
      c = .timeoutToggled o timeout (timeNull t0))
    (hs : b.step c = some b') (hr : b'.timerOf o = some r) :
    firstFiring r.due t0 - t0 = 1000 * timerPeriod timeout.interval - t0 % 1000 ∧
      timeout.interval - 999 ≤ firstFiring r.due t0 - t0 ∧
      (timeout.interval ≤ firstFiring r.due t0 - t0 ↔
        t0 % 1000 ≤ 1000 * timerPeriod timeout.interval - timeout.interval) := by
  obtain ⟨-, hdue⟩ := Bridge.due_of_step hc hs hr
  obtain ⟨h1, h2, -⟩ := timerPeriod_least timeout.interval_range.1
  simp only [firstFiring, hdue, timeNull]
  omega

theorem timeout_first_firing_at_999 :
    (∃ b' r, Bridge.init.step (.addTimeout 0 ⟨1000, true, by decide⟩ (timeNull 999) (some 0)) =
      some b' ∧ b'.timerOf 0 = some r ∧
        firstFiring r.due 999 - 999 = 1000 * timerPeriod 1000 - 999 % 1000) ∧
    ∃ b₁ b₂ r,
      Bridge.init.step (.addTimeout 0 ⟨1000, false, by decide⟩ (timeNull 0) (some 0)) = some b₁ ∧
      b₁.step (.timeoutToggled 0 ⟨1000, true, by decide⟩ (timeNull 1200)) = some b₂ ∧
      b₂.timerOf 0 = some r ∧
        firstFiring r.due 1200 - 1200 = 1000 * timerPeriod 1000 - 1200 % 1000 :=
  ⟨⟨_, _, rfl, rfl,
    (@timeout_first_firing Bridge.init _ _ 0 ⟨1000, true, by decide⟩ 999 _
      (.inl ⟨some 0, rfl⟩) rfl rfl).1⟩,
   _, _, _, rfl, rfl, rfl,
    (@timeout_first_firing ((Bridge.init.step (.addTimeout 0 ⟨1000, false, by decide⟩ (timeNull 0)
      (some 0))).getD Bridge.init) _ _ 0 ⟨1000, true, by decide⟩ 1200 _ (.inr rfl) rfl rfl).1⟩

end NihDBus
