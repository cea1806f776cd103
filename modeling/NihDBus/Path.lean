import Mathlib

/-!
# Object paths from arbitrary identifiers (`nih_dbus_path`, dbus.c:1251–1315)

`nih_dbus_path (parent, root, c₁, …, cₙ, NULL)` sizes its result in one pass
over the components, allocates `len + 1` bytes, and copies in a second pass:
`strcpy` of the root, then for each component a `/` and the component with
every byte outside `[A-Za-z0-9]` replaced by `_` and `sprintf ("%02x", *ptr)`.

The model keeps the two passes apart, as the code does:

- `sizingPass`: the `len` the first loop computes;
- `copyPass`: every byte the second loop writes, with its index, in order —
  `sprintf`'s digits and its terminating NUL included;
- `memory`, `readCString`: what the allocated block holds afterwards and the
  string the caller receives (`nihDbusPath`).

Plain `char` may be signed (GCC on x86 and x86-64) or unsigned (ARM):
`CharSign` says which. `*ptr` of a byte `≥ 0x80` is then negative, and `%x`
prints it as a 32-bit `unsigned int`.

The spec's words are `escapedPath`: the root, then `/` and each component with
every byte outside `[A-Za-z0-9]` replaced by `_` and its two lowercase hex
digits.

## Results

- `copyPass_spec`: when every byte's `char` value is non-negative, the copy
  pass stays inside the `len + 1` bytes and leaves exactly `escapedPath` behind;
  `nihDbusPath_unsigned` is the case of an unsigned `char`.
- `nihDbusPath_signed_overflow`: with a signed `char`, a byte `≥ 0x80` prints
  as eight digits `ffffffXX` where the sizing pass reserved two, and the copy
  pass writes past the block. C leaves what follows undefined; the model lets
  the writes land in an unbounded memory and reads the string back from it, so
  its results past such a write are only the model's.
- `nihDbusPath_injective_unsigned`: with an unsigned `char`, distinct component
  lists never share a path (`unescape` undoes the encoding).
- `nihDbusPath_isObjectPath`: when every byte's `char` value is non-negative
  (an unsigned `char`, or bytes below `0x80`), a valid root other than `/` and
  non-empty components give a valid object path, written inside the block;
  the root `/` gives `//…`.
-/

namespace NihDBus

/-- A C string: its bytes, none of them NUL. -/
structure CString where
  bytes : List UInt8
  nul_free : (0 : UInt8) ∉ bytes

/-- Two C strings with the same bytes are the same. -/
theorem CString.ext {s t : CString} (h : s.bytes = t.bytes) : s = t := by
  cases s; cases t; cases h; rfl

/-- The byte of an ASCII character. -/
def ch (c : Char) : UInt8 := c.toNat.toUInt8

/-- Bytes with the same value are equal. -/
theorem byte_ext {a b : UInt8} (h : a.toNat = b.toNat) : a = b :=
  UInt8.eq_of_val_eq (Fin.ext h)

/-- A byte's value is below 256. -/
theorem toNat_lt (b : UInt8) : b.toNat < 256 := b.toNat_lt_size

/-- `Nat.toUInt8` keeps a value below 256. -/
@[simp] theorem toNat_toUInt8 {n : Nat} (h : n < 256) : n.toUInt8.toNat = n := by
  simp [Nat.toUInt8, UInt8.toNat, UInt8.ofNat]; omega

/-! ## Plain `char` and `sprintf ("%02x")` -/

/-- Whether plain `char` is signed on the target. -/
inductive CharSign
  | signed
  | unsigned
  deriving DecidableEq, Repr

/-- `*ptr` for a plain `char` holding byte `b`, promoted to `int`. -/
def charValue : CharSign → UInt8 → Int
  | .signed, b => if b.toNat < 128 then b.toNat else b.toNat - 256
  | .unsigned, b => b.toNat

/-- The test both loops of `nih_dbus_path` make on `*ptr`: is it in
`'a'..'z'` (97–122), `'A'..'Z'` (65–90) or `'0'..'9'` (48–57)? -/
def isPathAlnum (sign : CharSign) (b : UInt8) : Bool :=
  let v := charValue sign b
  (97 ≤ v ∧ v ≤ 122) ∨ (65 ≤ v ∧ v ≤ 90) ∨ (48 ≤ v ∧ v ≤ 57)

/-- The eight hexadecimal digits of a 32-bit `unsigned int`, most significant
first. -/
def hexNibbles (u : Nat) : List Nat :=
  [7, 6, 5, 4, 3, 2, 1, 0].map fun k => u / 16 ^ k % 16

/-- Leading zero digits dropped while more than two remain: `%02x` prints no
leading zeros beyond a width of two. -/
def trimLeadingZeros : List Nat → List Nat
  | [] => []
  | [d] => [d]
  | [d, e] => [d, e]
  | d :: e :: f :: ds => if d = 0 then trimLeadingZeros (e :: f :: ds) else d :: e :: f :: ds

/-- The character of a lowercase hexadecimal digit. -/
def hexDigit (d : Nat) : UInt8 := Nat.toUInt8 (if d < 10 then 48 + d else 87 + d)

/-- `sprintf (buf, "%02x", v)` for an `int` argument `v`, read by `%x` as an
`unsigned int`: the bytes it writes, its terminating NUL included. -/
def sprintf02x (v : Int) : List UInt8 :=
  (trimLeadingZeros (hexNibbles (v % 4294967296).toNat)).map hexDigit ++ [0]

/-- A value that fits in a byte prints as exactly two digits and a NUL. -/
theorem sprintf02x_byte {n : Nat} (h : n < 256) :
    sprintf02x n = [hexDigit (n / 16), hexDigit (n % 16), 0] := by
  have h2 : (↑n % 4294967296 : Int).toNat = n := by omega
  have h16 : n / 16 % 16 = n / 16 := Nat.mod_eq_of_lt (by omega)
  simp (disch := omega) [sprintf02x, h2, hexNibbles, h16, trimLeadingZeros, Nat.div_eq_of_lt]

/-- Every `%02x` output has at least two digits before its NUL. -/
theorem trimLeadingZeros_length :
    ∀ {l : List Nat}, 2 ≤ l.length → 2 ≤ (trimLeadingZeros l).length
  | [d, e], _ => by simp [trimLeadingZeros]
  | d :: e :: f :: ds, _ => by
    unfold trimLeadingZeros
    split
    · exact trimLeadingZeros_length (by simp)
    · simp

/-- `trimLeadingZeros` only drops digits. -/
theorem mem_of_mem_trimLeadingZeros :
    ∀ {l : List Nat} {d : Nat}, d ∈ trimLeadingZeros l → d ∈ l
  | [], _, h | [_], _, h | [_, _], _, h => h
  | a :: e :: f :: ds, d, h => by
    unfold trimLeadingZeros at h
    split at h
    · exact List.mem_cons_of_mem _ (mem_of_mem_trimLeadingZeros h)
    · exact h

theorem three_le_length_sprintf02x (v : Int) : 3 ≤ (sprintf02x v).length := by
  have := trimLeadingZeros_length (l := hexNibbles (v % 4294967296).toNat) (by simp [hexNibbles])
  simp [sprintf02x]; omega

/-! ## The two passes -/

/-- The bytes the sizing loop counts for one component: one per byte kept,
three per byte escaped. -/
def componentSize (sign : CharSign) : List UInt8 → Nat
  | [] => 0
  | b :: bs => (if isPathAlnum sign b then 1 else 3) + componentSize sign bs

/-- The first loop of `nih_dbus_path`: `strlen (root)`, then for each
component one for its `/` and its bytes' share. -/
def sizingPass (sign : CharSign) (root : CString) (comps : List CString) : Nat :=
  root.bytes.length + (comps.map fun c => 1 + componentSize sign c.bytes).sum

/-- A write of a byte at an index of the allocated block. -/
abbrev Write := Nat × UInt8

/-- Bytes written from index `i` on, as `strcpy` and `sprintf` write them. -/
def writeFrom (i : Nat) (bs : List UInt8) : List Write := List.enumFrom i bs

/-- The inner copy loop over one component from index `len`: its writes and
the `len` it ends with. -/
def copyComponent (sign : CharSign) : Nat → List UInt8 → List Write × Nat
  | len, [] => ([], len)
  | len, b :: bs =>
    if isPathAlnum sign b then
      let r := copyComponent sign (len + 1) bs
      ((len, b) :: r.1, r.2)
    else
      let r := copyComponent sign (len + 3) bs
      ((len, ch '_') :: writeFrom (len + 1) (sprintf02x (charValue sign b)) ++ r.1, r.2)

/-- The outer copy loop: `path[len++] = '/'` and the inner loop, for each
component. -/
def copyComponents (sign : CharSign) : Nat → List (List UInt8) → List Write × Nat
  | len, [] => ([], len)
  | len, c :: cs =>
    let r := copyComponent sign (len + 1) c
    let r' := copyComponents sign r.2 cs
    ((len, ch '/') :: r.1 ++ r'.1, r'.2)

/-- Every write of the copy pass in order: `strcpy (path, root)`, the
components, and `path[len] = '\0'`. -/
def copyPass (sign : CharSign) (root : CString) (comps : List CString) : List Write :=
  let r := copyComponents sign root.bytes.length (comps.map (·.bytes))
  writeFrom 0 (root.bytes ++ [0]) ++ r.1 ++ [(r.2, 0)]

/-- Memory `m` after the writes `ws`: the last write to an index wins. -/
def writeAll (m : Nat → Option UInt8) (ws : List Write) : Nat → Option UInt8 :=
  ws.foldl (fun m w => Function.update m w.1 (some w.2)) m

/-- What a fresh block holds after the writes `ws`; `none` is a byte never
written. -/
def memory (ws : List Write) : Nat → Option UInt8 := writeAll (fun _ => none) ws

/-- The C string stored from index `i`: the bytes before the first NUL, read
within `fuel` bytes; `none` if it meets a byte never written. -/
def readCString (m : Nat → Option UInt8) (i : Nat) : Nat → Option (List UInt8)
  | 0 => none
  | fuel + 1 =>
    match m i with
    | none => none
    | some b => if b = 0 then some [] else (readCString m (i + 1) fuel).map (b :: ·)

/-- The string `nih_dbus_path` returns when its allocation succeeds: the C
string at the start of the `len + 1` bytes it allocated. -/
def nihDbusPath (sign : CharSign) (root : CString) (comps : List CString) :
    Option (List UInt8) :=
  readCString (memory (copyPass sign root comps)) 0 (sizingPass sign root comps + 1)

/-! ## The spec's encoding and the code's -/

/-- The spec's test: a byte in `[A-Za-z0-9]`. -/
def isAlnumByte (b : UInt8) : Bool :=
  (97 ≤ b.toNat ∧ b.toNat ≤ 122) ∨ (65 ≤ b.toNat ∧ b.toNat ≤ 90) ∨
    (48 ≤ b.toNat ∧ b.toNat ≤ 57)

/-- The spec's encoding of a byte: kept in `[A-Za-z0-9]`, otherwise `_` and
its two lowercase hex digits. -/
def escapeByte (b : UInt8) : List UInt8 :=
  if isAlnumByte b then [b] else [ch '_', hexDigit (b.toNat / 16), hexDigit (b.toNat % 16)]

/-- The spec's encoding of a component. -/
def escapeComponent (c : List UInt8) : List UInt8 := c.flatMap escapeByte

/-- The spec's path: the root, then `/` and the encoding of each component. -/
def escapedPath (root : CString) (comps : List CString) : List UInt8 :=
  root.bytes ++ (comps.map fun c => ch '/' :: escapeComponent c.bytes).flatten

/-- What the copy loop leaves for one byte: the byte, or `_` and the first two
characters `sprintf` printed (the next write lands right after them). -/
def codeEscapeByte (sign : CharSign) (b : UInt8) : List UInt8 :=
  if isPathAlnum sign b then [b] else ch '_' :: (sprintf02x (charValue sign b)).take 2

/-- What the copy loop leaves for a whole path. -/
def codeEscapedPath (sign : CharSign) (root : CString) (comps : List CString) : List UInt8 :=
  root.bytes ++ (comps.map fun c => ch '/' :: c.bytes.flatMap (codeEscapeByte sign)).flatten

/-- Both loops classify a byte alike whatever the sign of `char`: a byte
`≥ 0x80` is out of every range either way. -/
theorem isPathAlnum_eq (sign : CharSign) (b : UInt8) : isPathAlnum sign b = isAlnumByte b := by
  have := toNat_lt b
  simp only [isPathAlnum, isAlnumByte, decide_eq_decide]
  cases sign
  · simp only [charValue]; split_ifs <;> constructor <;> intro <;> omega
  · simp only [charValue]; constructor <;> intro <;> omega

/-- A non-negative `char` value is the byte itself. -/
theorem charValue_of_nonneg {sign : CharSign} {b : UInt8} (h : 0 ≤ charValue sign b) :
    charValue sign b = b.toNat := by
  have := toNat_lt b
  cases sign
  · simp only [charValue] at h ⊢; split_ifs at h ⊢ <;> omega
  · rfl

/-- With a non-negative `char` value the code leaves what the spec says. -/
theorem codeEscapeByte_of_nonneg {sign : CharSign} {b : UInt8} (h : 0 ≤ charValue sign b) :
    codeEscapeByte sign b = escapeByte b := by
  simp only [codeEscapeByte, escapeByte, isPathAlnum_eq, charValue_of_nonneg h,
    sprintf02x_byte (toNat_lt b)]
  rfl

theorem length_codeEscapeByte (sign : CharSign) (b : UInt8) :
    (codeEscapeByte sign b).length = if isPathAlnum sign b then 1 else 3 := by
  have := three_le_length_sprintf02x (charValue sign b)
  unfold codeEscapeByte; split_ifs <;> simp; omega

/-- The first two characters `sprintf` prints are hex digits. -/
theorem mem_take_sprintf02x {v : Int} {x : UInt8} (h : x ∈ (sprintf02x v).take 2) :
    ∃ d < 16, x = hexDigit d := by
  have hlen :=
    trimLeadingZeros_length (l := hexNibbles (v % 4294967296).toNat) (by simp [hexNibbles])
  rw [sprintf02x, List.take_append_of_le_length (by simpa using hlen)] at h
  obtain ⟨d, hd, rfl⟩ := List.mem_map.mp (List.mem_of_mem_take h)
  obtain ⟨k, -, rfl⟩ := List.mem_map.mp (mem_of_mem_trimLeadingZeros hd)
  exact ⟨_, Nat.mod_lt _ (by decide), rfl⟩

/-- A hex digit is a non-NUL byte of `[0-9a-f]`. -/
theorem hexDigit_toNat {d : Nat} (h : d < 16) :
    (hexDigit d).toNat = if d < 10 then 48 + d else 87 + d := by
  unfold hexDigit; split_ifs <;> exact toNat_toUInt8 (by omega)

theorem hexDigit_alnum {d : Nat} (h : d < 16) : isAlnumByte (hexDigit d) = true := by
  simp only [isAlnumByte, hexDigit_toNat h, decide_eq_true_eq]; split_ifs <;> omega

/-- A byte the spec keeps is not NUL. -/
theorem ne_zero_of_alnum {b : UInt8} (h : isAlnumByte b = true) : b ≠ 0 := by
  rintro rfl; simp [isAlnumByte] at h

/-- Every byte the copy loop leaves for `b` is in `[A-Za-z0-9_]`. -/
theorem codeEscapeByte_alnum_or_underscore {sign : CharSign} {b x : UInt8}
    (h : x ∈ codeEscapeByte sign b) : isAlnumByte x = true ∨ x = ch '_' := by
  unfold codeEscapeByte at h
  split_ifs at h with ha
  · rw [List.mem_singleton.mp h, ← isPathAlnum_eq sign]; exact .inl ha
  · rcases List.mem_cons.mp h with rfl | h
    · exact .inr rfl
    · obtain ⟨d, hd, rfl⟩ := mem_take_sprintf02x h
      exact .inl (hexDigit_alnum hd)

theorem codeEscapeByte_ne_zero {sign : CharSign} {b x : UInt8} (h : x ∈ codeEscapeByte sign b) :
    x ≠ 0 := by
  rcases codeEscapeByte_alnum_or_underscore h with h | rfl
  · exact ne_zero_of_alnum h
  · decide

/-! ## What the copy pass leaves behind -/

/-- Memory `m` holds `s` at indices `0 .. s.length - 1`. -/
def HoldsPrefix (m : Nat → Option UInt8) (s : List UInt8) : Prop :=
  ∀ i, i < s.length → m i = s[i]?

theorem writeAll_append (m : Nat → Option UInt8) (ws ws' : List Write) :
    writeAll m (ws ++ ws') = writeAll (writeAll m ws) ws' := List.foldl_append ..

/-- Frame: writes elsewhere leave index `i` alone. -/
theorem writeAll_other {i : Nat} : ∀ {m : Nat → Option UInt8} {ws : List Write},
    (∀ w ∈ ws, w.1 ≠ i) → writeAll m ws i = m i
  | _, [], _ => rfl
  | m, w :: ws, h => by
    rw [writeAll, List.foldl_cons, ← writeAll, writeAll_other fun w hw => h w (.tail _ hw)]
    exact Function.update_noteq (h w (.head _)).symm _ _

theorem holdsPrefix_write {m : Nat → Option UInt8} {s : List UInt8} (h : HoldsPrefix m s)
    (b : UInt8) : HoldsPrefix (Function.update m s.length (some b)) (s ++ [b]) := by
  intro i hi
  rcases Nat.lt_or_ge i s.length with hl | hl
  · rw [Function.update_noteq (by omega), List.getElem?_append_left hl, h i hl]
  · have : i = s.length := by simp at hi; omega
    subst this; simp

theorem holdsPrefix_writeFrom : ∀ {m : Nat → Option UInt8} {s : List UInt8} (t : List UInt8),
    HoldsPrefix m s → HoldsPrefix (writeAll m (writeFrom s.length t)) (s ++ t)
  | _, s, [], h => by simpa [writeFrom, writeAll] using h
  | m, s, b :: t, h => by
    have := holdsPrefix_writeFrom t (holdsPrefix_write h b)
    simpa [writeFrom, writeAll, List.enumFrom_cons] using this

theorem HoldsPrefix.left {m : Nat → Option UInt8} {s t : List UInt8}
    (h : HoldsPrefix m (s ++ t)) :
    HoldsPrefix m s := fun i hi => by
  rw [h i (by simp; omega), List.getElem?_append_left hi]

/-- Writes at or beyond the end of the prefix keep it. -/
theorem HoldsPrefix.writeAll {m : Nat → Option UInt8} {s : List UInt8} {ws : List Write}
    (h : HoldsPrefix m s) (hw : ∀ w ∈ ws, s.length ≤ w.1) : HoldsPrefix (writeAll m ws) s :=
  fun i hi => by rw [writeAll_other fun w hw' => by have := hw w hw'; omega, h i hi]

/-- The inner loop ends `componentSize` bytes on, whatever it printed. -/
theorem copyComponent_snd (sign : CharSign) : ∀ (len : Nat) (c : List UInt8),
    (copyComponent sign len c).2 = len + componentSize sign c
  | len, [] => rfl
  | len, b :: bs => by
    unfold copyComponent componentSize
    split_ifs <;> simp only [copyComponent_snd sign _ bs] <;> omega

/-- **The inner copy loop**: after it, memory holds the prefix followed by what
the loop leaves for each byte, whatever the sign of `char`. -/
theorem copyComponent_holds (sign : CharSign) : ∀ (c : List UInt8) {m : Nat → Option UInt8}
    {s : List UInt8}, HoldsPrefix m s →
    HoldsPrefix (writeAll m (copyComponent sign s.length c).1)
      (s ++ c.flatMap (codeEscapeByte sign))
  | [], _, s, h => by simpa [copyComponent, writeAll] using h
  | b :: bs, m, s, h => by
    unfold copyComponent
    split_ifs with ha
    · have := copyComponent_holds sign bs (holdsPrefix_write h b)
      simpa [writeAll, codeEscapeByte, ha] using this
    · -- the `_`, then `sprintf`'s output, of which the next write keeps two
      set o := sprintf02x (charValue sign b)
      have ho : o = o.take 2 ++ o.drop 2 := (List.take_append_drop 2 o).symm
      have h1 := holdsPrefix_writeFrom o (holdsPrefix_write h (ch '_'))
      rw [ho, ← List.append_assoc] at h1
      have hlen : (s ++ [ch '_'] ++ o.take 2).length = s.length + 3 := by
        have : 3 ≤ o.length := three_le_length_sprintf02x _
        simp; omega
      have h2 := copyComponent_holds sign bs h1.left
      rw [hlen] at h2
      simp only [List.length_append, List.length_singleton] at h1
      rw [← ho] at h1
      simpa [writeAll_append, writeAll, codeEscapeByte, ha] using h2

theorem length_flatMap_codeEscapeByte (sign : CharSign) : ∀ c : List UInt8,
    (c.flatMap (codeEscapeByte sign)).length = componentSize sign c
  | [] => rfl
  | b :: bs => by
    simp only [List.flatMap_cons, List.length_append, length_codeEscapeByte, componentSize,
      length_flatMap_codeEscapeByte sign bs]

/-- The outer loop ends where the sizing pass said. -/
theorem copyComponents_snd (sign : CharSign) : ∀ (len : Nat) (cs : List (List UInt8)),
    (copyComponents sign len cs).2 = len + (cs.map fun c => 1 + componentSize sign c).sum
  | len, [] => rfl
  | len, c :: cs => by
    simp only [copyComponents, copyComponents_snd sign _ cs, copyComponent_snd, List.map_cons,
      List.sum_cons]
    omega

/-- **The outer copy loop**: memory holds the prefix, then `/` and what the
inner loop leaves, for each component. -/
theorem copyComponents_holds (sign : CharSign) : ∀ (cs : List (List UInt8))
    {m : Nat → Option UInt8} {s : List UInt8}, HoldsPrefix m s →
    HoldsPrefix (writeAll m (copyComponents sign s.length cs).1)
      (s ++ (cs.map fun c => ch '/' :: c.flatMap (codeEscapeByte sign)).flatten)
  | [], _, s, h => by simpa [copyComponents, writeAll] using h
  | c :: cs, m, s, h => by
    have h1 := copyComponent_holds sign c (holdsPrefix_write h (ch '/'))
    have hlen : (copyComponent sign (s.length + 1) c).2 =
        (s ++ [ch '/'] ++ c.flatMap (codeEscapeByte sign)).length := by
      simp only [copyComponent_snd, List.length_append, List.length_singleton,
        length_flatMap_codeEscapeByte]
    have h2 := copyComponents_holds sign cs h1
    rw [← hlen] at h2
    simpa [copyComponents, writeAll_append, writeAll] using h2

theorem length_codeEscapedPath (sign : CharSign) (root : CString) (comps : List CString) :
    (codeEscapedPath sign root comps).length = sizingPass sign root comps := by
  simp only [codeEscapedPath, sizingPass, List.length_append, List.length_flatten, List.map_map]
  congr 2
  exact List.map_congr_left fun c _ => by
    simp only [Function.comp_apply, List.length_cons, length_flatMap_codeEscapeByte, Nat.add_comm]

theorem zero_not_mem_codeEscapedPath (sign : CharSign) (root : CString) (comps : List CString) :
    (0 : UInt8) ∉ codeEscapedPath sign root comps := by
  simp only [codeEscapedPath, List.mem_append, List.mem_flatten, List.mem_map, not_or]
  refine ⟨root.nul_free, ?_⟩
  rintro ⟨_, ⟨c, -, rfl⟩, h⟩
  rcases List.mem_cons.mp h with h | h
  · exact absurd h (by decide)
  · obtain ⟨b, -, hb⟩ := List.mem_flatMap.mp h
    exact codeEscapeByte_ne_zero hb rfl

/-- The C string at `i`, when memory holds `s` there followed by a NUL. -/
theorem readCString_eq {m : Nat → Option UInt8} : ∀ (s : List UInt8) (i fuel : Nat),
    (∀ j < s.length, m (i + j) = s[j]?) → m (i + s.length) = some 0 → (0 : UInt8) ∉ s →
    s.length < fuel → readCString m i fuel = some s
  | [], i, fuel + 1, _, h0, _, _ => by
    simp only [List.length_nil, Nat.add_zero] at h0; simp [readCString, h0]
  | b :: s, i, fuel + 1, h, h0, hnz, hf => by
    have hb : m i = some b := by simpa using h 0 (by simp)
    have hb0 : b ≠ 0 := fun e => hnz (e ▸ List.mem_cons_self _ _)
    have ih := readCString_eq s (i + 1) fuel
      (fun j hj => by simpa [Nat.add_assoc, Nat.add_comm 1 j] using h (j + 1) (by simp; omega))
      (by simpa [Nat.add_assoc, Nat.add_comm 1] using h0)
      (fun e => hnz (List.mem_cons_of_mem _ e)) (by simp at hf; omega)
    simp [readCString, hb, hb0, ih]

/-- **What `nih_dbus_path` returns** in the model: the root, then `/` and what
the copy loop leaves for each byte of each component. With a signed `char` and
a byte `≥ 0x80` some of those writes fall past the block
(`nihDbusPath_signed_overflow`), where C promises nothing. -/
theorem nihDbusPath_eq (sign : CharSign) (root : CString) (comps : List CString) :
    nihDbusPath sign root comps = some (codeEscapedPath sign root comps) := by
  -- the root and its NUL, then the components, then the final NUL
  have h0 :
      HoldsPrefix (writeAll (fun _ => none) (writeFrom 0 (root.bytes ++ [0]))) root.bytes := by
    have := holdsPrefix_writeFrom (m := fun _ => none) (s := []) (root.bytes ++ [0])
      fun _ h => absurd h (Nat.not_lt_zero _)
    rw [List.nil_append] at this
    exact this.left
  have h1 := copyComponents_holds sign (comps.map (·.bytes)) h0
  simp only [List.map_map, Function.comp_def] at h1
  have hend : (copyComponents sign root.bytes.length (comps.map (·.bytes))).2 =
      (codeEscapedPath sign root comps).length := by
    rw [copyComponents_snd, length_codeEscapedPath, sizingPass, List.map_map]; rfl
  have hmem : memory (copyPass sign root comps) =
      Function.update (writeAll (writeAll (fun _ => none) (writeFrom 0 (root.bytes ++ [0])))
        (copyComponents sign root.bytes.length (comps.map (·.bytes))).1)
        (codeEscapedPath sign root comps).length (some 0) := by
    simp only [memory, copyPass, writeAll_append, hend]; rfl
  refine readCString_eq _ 0 _ (fun j hj => ?_) ?_ (zero_not_mem_codeEscapedPath sign root comps)
    (by rw [length_codeEscapedPath]; omega)
  · rw [hmem, Nat.zero_add, Function.update_noteq (by omega)]
    exact h1 j hj
  · rw [hmem, Nat.zero_add, Function.update_same]

/-! ## Inside the allocation, when every `char` is non-negative -/

/-- With non-negative `char` values the inner loop writes only between its
start and its end: `sprintf`'s NUL lands where the next write goes. -/
theorem copyComponent_bounds (sign : CharSign) : ∀ (len : Nat) (c : List UInt8),
    (∀ b ∈ c, 0 ≤ charValue sign b) →
    ∀ w ∈ (copyComponent sign len c).1, len ≤ w.1 ∧ w.1 ≤ len + componentSize sign c
  | len, [], _ => by simp [copyComponent]
  | len, b :: bs, hc => by
    have ih := fun l => copyComponent_bounds sign l bs fun x hx => hc x (.tail _ hx)
    unfold copyComponent componentSize
    split_ifs with ha
    · intro w hw
      rcases List.mem_cons.mp hw with rfl | hw
      · simp
      · have := ih _ w hw; omega
    · rw [charValue_of_nonneg (hc b (.head _)), sprintf02x_byte (toNat_lt b)]
      intro w hw
      simp only [writeFrom, List.enumFrom_cons, List.enumFrom_nil, List.cons_append,
        List.singleton_append, List.mem_cons] at hw
      rcases hw with rfl | rfl | rfl | rfl | hw
      · simp
      · simp; omega
      · simp; omega
      · simp; omega
      · have := ih _ w hw; omega

theorem copyComponents_bounds (sign : CharSign) : ∀ (len : Nat) (cs : List (List UInt8)),
    (∀ c ∈ cs, ∀ b ∈ c, 0 ≤ charValue sign b) →
    ∀ w ∈ (copyComponents sign len cs).1, len ≤ w.1 ∧ w.1 ≤ (copyComponents sign len cs).2
  | len, [], _ => by simp [copyComponents]
  | len, c :: cs, hc => by
    have h1 := copyComponent_bounds sign (len + 1) c (hc c (.head _))
    have h2 := copyComponents_bounds sign (copyComponent sign (len + 1) c).2 cs
      fun c' hc' => hc c' (.tail _ hc')
    have hend := copyComponents_snd sign (copyComponent sign (len + 1) c).2 cs
    rw [copyComponent_snd] at h2 hend
    intro w hw
    simp only [copyComponents, copyComponent_snd, List.cons_append, List.mem_cons,
      List.mem_append] at hw
    simp only [copyComponents, copyComponent_snd]
    rcases hw with rfl | hw | hw
    · rw [hend]; omega
    · have := h1 w hw; omega
    · have := h2 w hw; omega

/-- **The copy pass stays inside the allocation and leaves the spec's path**
when every byte's `char` value is non-negative. -/
theorem copyPass_spec {sign : CharSign} {root : CString} {comps : List CString}
    (h : ∀ c ∈ comps, ∀ b ∈ c.bytes, 0 ≤ charValue sign b) :
    (∀ w ∈ copyPass sign root comps, w.1 < sizingPass sign root comps + 1) ∧
      nihDbusPath sign root comps = some (escapedPath root comps) ∧
      (escapedPath root comps).length = sizingPass sign root comps := by
  have hcode : codeEscapedPath sign root comps = escapedPath root comps := by
    simp only [codeEscapedPath, escapedPath, escapeComponent]
    congr 2
    refine List.map_congr_left fun c hc => ?_
    simp only [List.flatMap]
    rw [List.map_congr_left fun b hb => codeEscapeByte_of_nonneg (h c hc b hb)]
  have hend : (copyComponents sign root.bytes.length (comps.map (·.bytes))).2 =
      sizingPass sign root comps := by
    rw [copyComponents_snd, sizingPass, List.map_map]; rfl
  refine ⟨fun w hw => ?_, hcode ▸ nihDbusPath_eq sign root comps,
    hcode ▸ length_codeEscapedPath sign root comps⟩
  have hroot : root.bytes.length ≤ sizingPass sign root comps := by simp [sizingPass]
  simp only [copyPass, List.mem_append, List.mem_singleton] at hw
  rcases hw with (hw | hw) | rfl
  · have := List.fst_lt_add_of_mem_enumFrom hw; simp at this; omega
  · have := copyComponents_bounds sign _ _ (by simpa using h) w hw; omega
  · simp only [hend]; omega

/-- An unsigned `char` is never negative. -/
theorem charValue_unsigned_nonneg (comps : List CString) :
    ∀ c ∈ comps, ∀ b ∈ c.bytes, 0 ≤ charValue .unsigned b :=
  fun _ _ _ _ => by simp only [charValue]; omega

/-- With an unsigned `char`, `nih_dbus_path` writes only inside the `len + 1`
bytes it allocates and returns exactly the spec's encoding, of length `len`. -/
theorem nihDbusPath_unsigned (root : CString) (comps : List CString) :
    (∀ w ∈ copyPass .unsigned root comps, w.1 < sizingPass .unsigned root comps + 1) ∧
      nihDbusPath .unsigned root comps = some (escapedPath root comps) ∧
      (escapedPath root comps).length = sizingPass .unsigned root comps :=
  copyPass_spec (charValue_unsigned_nonneg comps)

/-- At root `/x` and the component of the one byte `0x80`, with a signed
`char`: `sprintf` writes `ffffff80` and its NUL from index 4 on, past the
seven bytes allocated, and the path comes back as `/x/_ff`, where the spec's
encoding is `/x/_80`. -/
theorem nihDbusPath_signed_overflow :
    (∃ w ∈ copyPass .signed ⟨[47, 120], by decide⟩ [⟨[128], by decide⟩],
        sizingPass .signed ⟨[47, 120], by decide⟩ [⟨[128], by decide⟩] + 1 ≤ w.1) ∧
      nihDbusPath .signed ⟨[47, 120], by decide⟩ [⟨[128], by decide⟩] =
        some [47, 120, 47, 95, 102, 102] ∧
      escapedPath ⟨[47, 120], by decide⟩ [⟨[128], by decide⟩] = [47, 120, 47, 95, 56, 48] := by
  refine ⟨by decide, ?_, by decide⟩
  rw [nihDbusPath_eq]; decide

/-- With a signed `char` the bytes `0x80` and `0x81` both come back as `_ff`:
two distinct components, one path. -/
theorem nihDbusPath_signed_collision :
    nihDbusPath .signed ⟨[47, 120], by decide⟩ [⟨[128], by decide⟩] =
        nihDbusPath .signed ⟨[47, 120], by decide⟩ [⟨[129], by decide⟩] ∧
      ([⟨[128], by decide⟩] : List CString) ≠ [⟨[129], by decide⟩] := by
  refine ⟨by rw [nihDbusPath_eq, nihDbusPath_eq]; decide, fun h => ?_⟩
  have := congrArg (List.map CString.bytes) h
  exact absurd this (by decide)

/-! ## Distinct identifiers, distinct paths -/

theorem hexDigit_inj {d e : Nat} (hd : d < 16) (he : e < 16) (h : hexDigit d = hexDigit e) :
    d = e := by
  have := congrArg UInt8.toNat h
  rw [hexDigit_toNat hd, hexDigit_toNat he] at this
  split_ifs at this <;> omega

/-- One encoded byte followed by anything is read back unambiguously. -/
theorem escapeByte_append_inj {a b : UInt8} {x y : List UInt8}
    (h : escapeByte a ++ x = escapeByte b ++ y) : a = b ∧ x = y := by
  have ha := toNat_lt a
  have hb := toNat_lt b
  have hu : isAlnumByte (ch '_') = false := by decide
  unfold escapeByte at h
  split_ifs at h with h1 h2 h2
  · simpa using h
  · simp only [List.singleton_append, List.cons_append, List.cons.injEq] at h
    exact absurd (h.1 ▸ h1) (by simp [hu])
  · simp only [List.singleton_append, List.cons_append, List.cons.injEq] at h
    exact absurd (h.1 ▸ h2) (by simp [hu])
  · simp only [List.cons_append, List.nil_append, List.cons.injEq, true_and] at h
    obtain ⟨h16, h1', rfl⟩ := h
    have := hexDigit_inj (by omega) (by omega) h16
    have := hexDigit_inj (Nat.mod_lt _ (by decide)) (Nat.mod_lt _ (by decide)) h1'
    exact ⟨byte_ext (by omega), rfl⟩

theorem escapeComponent_eq_nil {c : List UInt8} : escapeComponent c = [] ↔ c = [] := by
  cases c with
  | nil => simp [escapeComponent]
  | cons b c =>
    simp only [escapeComponent, List.flatMap_cons, List.append_eq_nil, reduceCtorEq, iff_false,
      not_and]
    intro h; unfold escapeByte at h; split_ifs at h

/-- The spec's encoding of a component is injective. -/
theorem escapeComponent_injective :
    ∀ {c d : List UInt8}, escapeComponent c = escapeComponent d → c = d
  | [], [], _ => rfl
  | [], _ :: _, h => absurd (escapeComponent_eq_nil.mp h.symm) (by simp)
  | _ :: _, [], h => absurd (escapeComponent_eq_nil.mp h) (by simp)
  | a :: c, b :: d, h => by
    obtain ⟨rfl, h'⟩ := escapeByte_append_inj h
    rw [escapeComponent_injective h']

/-- The spec's encoding never produces a `/`. -/
theorem slash_not_mem_escapeComponent (c : List UInt8) : ch '/' ∉ escapeComponent c := by
  simp only [escapeComponent, List.mem_flatMap, not_exists, not_and]
  intro b _ h
  have := toNat_lt b
  unfold escapeByte at h
  split_ifs at h with ha
  · rw [List.mem_singleton] at h; subst h; simp [isAlnumByte, ch] at ha
  · simp only [List.mem_cons, List.mem_singleton, List.not_mem_nil, or_false] at h
    rcases h with h | h | h
    · exact absurd h (by decide)
    all_goals
      have := congrArg UInt8.toNat h
      rw [hexDigit_toNat (by omega)] at this
      simp [ch] at this; split_ifs at this <;> omega

/-- Splitting at the first `/` is unambiguous. -/
theorem append_slash_inj : ∀ {a b x y : List UInt8}, ch '/' ∉ a → ch '/' ∉ b →
    x.head? ∈ [none, some (ch '/')] → y.head? ∈ [none, some (ch '/')] →
    a ++ x = b ++ y → a = b ∧ x = y
  | [], [], _, _, _, _, _, _, h => ⟨rfl, h⟩
  | [], c :: b, x, _, _, hb, hx, _, h | c :: b, [], _, x, hb, _, _, hx, h => by
    subst h
    simp only [List.cons_append, List.head?_cons, List.mem_cons, Option.some.injEq,
      reduceCtorEq, false_or, List.mem_singleton, List.not_mem_nil, or_false] at hx
    exact absurd (hx ▸ List.mem_cons_self _ _) hb
  | c :: a, d :: b, x, y, ha, hb, hx, hy, h => by
    simp only [List.cons_append, List.cons.injEq] at h
    obtain ⟨rfl, h⟩ := h
    obtain ⟨rfl, rfl⟩ :=
      append_slash_inj (fun m => ha (.tail _ m)) (fun m => hb (.tail _ m)) hx hy h
    exact ⟨rfl, rfl⟩

theorem head_encodedComponents (cs : List CString) :
    ((cs.map fun c => ch '/' :: escapeComponent c.bytes).flatten).head? ∈
      [none, some (ch '/')] := by
  cases cs <;> simp

/-- The spec's path determines its component list. -/
theorem escapedPath_injective {root : CString} :
    ∀ {cs ds : List CString}, escapedPath root cs = escapedPath root ds → cs = ds
  | [], [], _ => rfl
  | [], _ :: _, h | _ :: _, [], h => by simp [escapedPath] at h
  | c :: cs, d :: ds, h => by
    simp only [escapedPath, List.append_cancel_left_eq, List.map_cons, List.flatten_cons,
      List.cons_append, List.cons.injEq, true_and] at h
    obtain ⟨hcd, hrest⟩ := append_slash_inj (slash_not_mem_escapeComponent _)
      (slash_not_mem_escapeComponent _) (head_encodedComponents cs) (head_encodedComponents ds) h
    have hrest' : escapedPath root cs = escapedPath root ds := by simp [escapedPath, hrest]
    rw [CString.ext (escapeComponent_injective hcd), escapedPath_injective hrest']

/-- With an unsigned `char`, `nih_dbus_path` gives distinct component lists
distinct paths: each `_hh` reads back as the byte `0xhh`. -/
theorem nihDbusPath_injective_unsigned (root : CString) :
    Function.Injective (nihDbusPath .unsigned root) := fun cs ds h => by
  rw [(copyPass_spec (charValue_unsigned_nonneg cs)).2.1,
    (copyPass_spec (charValue_unsigned_nonneg ds)).2.1] at h
  exact escapedPath_injective (Option.some.inj h)

/-! ## Valid object paths -/

/-- A byte allowed in an element of an object path: `[A-Za-z0-9_]`. -/
def isPathElementByte (b : UInt8) : Bool := isAlnumByte b || b = ch '_'

/-- A valid D-Bus object path: `/` alone, or one or more non-empty elements of
`[A-Za-z0-9_]`, each after a `/` — so no `//` and no trailing `/`. -/
def IsObjectPath (p : List UInt8) : Prop :=
  p = [ch '/'] ∨ ∃ es : List (List UInt8), es ≠ [] ∧
    (∀ e ∈ es, e ≠ [] ∧ ∀ b ∈ e, isPathElementByte b = true) ∧
    p = (es.map (ch '/' :: ·)).flatten

/-- The root `/` is a valid object path, yet with it the component `a` comes
back as `//a`, which is not one: `nih_dbus_path` always puts a `/` between
the root and the first component. -/
theorem nihDbusPath_root_slash (sign : CharSign) :
    IsObjectPath [47] ∧ nihDbusPath sign ⟨[47], by decide⟩ [⟨[97], by decide⟩] = some [47, 47, 97] ∧
      ¬ IsObjectPath [47, 47, 97] := by
  refine ⟨.inl rfl, by rw [nihDbusPath_eq]; cases sign <;> decide, ?_⟩
  rintro (h | ⟨es, hne, hall, hp⟩)
  · exact absurd h (by decide)
  · obtain ⟨e, es, rfl⟩ := List.exists_cons_of_ne_nil hne
    obtain ⟨he, hbytes⟩ := hall e (.head _)
    obtain ⟨x, e, rfl⟩ := List.exists_cons_of_ne_nil he
    simp only [List.map_cons, List.flatten_cons, List.cons_append, List.cons.injEq] at hp
    exact absurd (hp.2.1 ▸ hbytes x (.head _)) (by decide)

/-- **Valid roots other than `/` give valid paths**: when every byte's `char`
value is non-negative, a valid root other than `/` and non-empty components
make `nih_dbus_path` write only inside its block and return a valid object
path. -/
theorem nihDbusPath_isObjectPath (sign : CharSign) {root : CString} {comps : List CString}
    (hroot : IsObjectPath root.bytes) (hslash : root.bytes ≠ [ch '/'])
    (hcomps : ∀ c ∈ comps, c.bytes ≠ [])
    (hchar : ∀ c ∈ comps, ∀ b ∈ c.bytes, 0 ≤ charValue sign b) :
    (∀ w ∈ copyPass sign root comps, w.1 < sizingPass sign root comps + 1) ∧
      ∃ p, nihDbusPath sign root comps = some p ∧ IsObjectPath p := by
  obtain ⟨es, hne, hall, hes⟩ := hroot.resolve_left hslash
  refine ⟨(copyPass_spec hchar).1, _, nihDbusPath_eq sign root comps, .inr ⟨es ++ comps.map fun c =>
    c.bytes.flatMap (codeEscapeByte sign), by simp [hne], fun e he => ?_, ?_⟩⟩
  · rcases List.mem_append.mp he with he | he
    · exact hall e he
    · obtain ⟨c, hc, rfl⟩ := List.mem_map.mp he
      refine ⟨?_, fun x hx => ?_⟩
      · obtain ⟨b, bs, hb⟩ := List.exists_cons_of_ne_nil (hcomps c hc)
        rw [hb, List.flatMap_cons]
        intro h
        have := congrArg List.length (List.append_eq_nil.mp h).1
        rw [length_codeEscapeByte] at this
        split_ifs at this <;> simp at this
      · obtain ⟨b, -, hx⟩ := List.mem_flatMap.mp hx
        rcases codeEscapeByte_alnum_or_underscore hx with h | rfl <;> simp [isPathElementByte, *]
  · simp [codeEscapedPath, hes, List.map_append, List.flatten_append, Function.comp_def]

/-- The root `/x` with the component `a`, with a signed `char`: a valid root
other than `/` and a non-empty component of ASCII bytes. -/
theorem nihDbusPath_isObjectPath_example :
    IsObjectPath [47, 120] ∧ [47, 120] ≠ [ch '/'] ∧
      (∀ w ∈ copyPass .signed ⟨[47, 120], by decide⟩ [⟨[97], by decide⟩],
        w.1 < sizingPass .signed ⟨[47, 120], by decide⟩ [⟨[97], by decide⟩] + 1) ∧
      (∃ p, nihDbusPath .signed ⟨[47, 120], by decide⟩ [⟨[97], by decide⟩] = some p ∧
        IsObjectPath p) :=
  have hroot : IsObjectPath [47, 120] :=
    .inr ⟨[[120]], by simp, by decide, rfl⟩
  ⟨hroot, by decide, nihDbusPath_isObjectPath .signed hroot (by decide)
    (by simp) (by decide)⟩

end NihDBus
