import MistyWorld.Utf8
import Mathlib.Data.List.Count

/-!
# Wide strings

The conversions of `Util.cpp` between UTF-8 and buffers of `wchar_t`. They measure a string in code
points and put out units of sixteen bits, of which a code point above 0xFFFF has two. So the buffer
that was found large enough is overrun by the units, the size that is reported leaves units behind,
and a string that is cut after some units is not cut after as many code points. A read or a store
outside of a buffer has no defined result, which is `none` here.

Each of the three properties holds exactly where such code points are missing
(`utf8toWStr_ne_none_iff`, `comesBack_iff`, `truncates_iff`).
-/

open Option List Utf8

namespace MistyWorld

/-! ## Buffers -/

/-- A store at a place of a buffer. -/
def store {α : Type} (i : ℕ) (v : α) (buf : List α) : Option (List α) :=
  if i < buf.length then some (buf.set i v) else none

/-- Stores one after the other, from the beginning of a buffer on. -/
def storeAll {α : Type} (l buf : List α) : Option (List α) :=
  if l.length ≤ buf.length then some (l ++ buf.drop l.length) else none

/-- `std::basic_string::resize` -/
def resize {α : Type} (n : ℕ) (v : α) (s : List α) : List α :=
  s.take n ++ List.replicate (n - s.length) v

/-! ## Conversions -/

/-- What `Utf8toWStr` returns, with the buffer and the size. -/
structure WideResult where
  ok : Bool
  wstr : List ℕ
  wsize : ℕ
  deriving DecidableEq, Repr

/-- `utf8truncate` -/
def utf8truncate (utf8str : List UInt8) (len : ℕ) : Option (List UInt8) :=
  match distance utf8str with
  | .error _ => some []
  | .ok wlen =>
    if wlen ≤ len then some utf8str
    else do
      let (units, e) := utf8to16 utf8str
      let wstr ← storeAll units (resize wlen 0 [])
      if e.isSome then some []
      else do
        let wstr := resize len 0 wstr
        let (octets, e) := utf16to8 wstr
        let utf8str ← storeAll octets utf8str
        if e.isSome then some [] else some (resize octets.length 0 utf8str)

/-- The way out of `Utf8toWStr` when it fails. -/
def noWStr (wstr : List ℕ) (wsize : ℕ) : Option WideResult := do
  let wstr ← if wsize > 0 then store 0 0 wstr else some wstr
  return ⟨false, wstr, 0⟩

/-- `Utf8toWStr`, into a buffer. -/
def utf8toWStr (utf8str : List UInt8) (wstr : List ℕ) (wsize : ℕ) : Option WideResult :=
  match distance utf8str with
  | .error _ => noWStr wstr wsize
  | .ok len =>
    if len > wsize then noWStr wstr wsize
    else do
      let wsize := len
      let (units, e) := utf8to16 utf8str
      let wstr ← storeAll units wstr
      if e.isSome then noWStr wstr wsize
      else do
        let wstr ← store len 0 wstr
        return ⟨true, wstr, wsize⟩

/-- `Utf8toWStr`, into a `std::wstring`. -/
def utf8toWString (utf8str : List UInt8) (wstr : List ℕ) : Option (Bool × List ℕ) :=
  match distance utf8str with
  | .error _ => some (false, [])
  | .ok len =>
    if len ≠ 0 then do
      let (units, e) := utf8to16 utf8str
      let wstr ← storeAll units (resize len 0 wstr)
      if e.isSome then some (false, []) else some (true, wstr)
    else some (true, wstr)

/-- `WStrToUtf8`, from a buffer. -/
def wStrToUtf8 (wstr : List ℕ) (size : ℕ) : Option (Bool × List UInt8) :=
  if wstr.length < size then none
  else do
    let utf8str2 := resize (size * 4) 0 []
    if size ≠ 0 then do
      let (octets, e) := utf16to8 (wstr.take size)
      let utf8str2 ← storeAll octets utf8str2
      if e.isSome then return (false, []) else return (true, resize octets.length 0 utf8str2)
    else return (true, utf8str2)

/-! ## Account names -/

/-- `isBasicLatinCharacter` -/
def isBasicLatinCharacter (wchar : ℕ) : Bool :=
  if wchar ≥ 0x61 ∧ wchar ≤ 0x7A then true
  else if wchar ≥ 0x41 ∧ wchar ≤ 0x5A then true
  else false

/-- `wcharToUpper` -/
def wcharToUpper (wchar : ℕ) : ℕ :=
  if wchar ≥ 0x61 ∧ wchar ≤ 0x7A then wchar % 2 ^ 16 - 0x0020
  else if wchar = 0x00DF then 0x1E9E
  else if wchar ≥ 0x00E0 ∧ wchar ≤ 0x00F6 then wchar % 2 ^ 16 - 0x0020
  else if wchar ≥ 0x00F8 ∧ wchar ≤ 0x00FE then wchar % 2 ^ 16 - 0x0020
  else if (wchar ≥ 0x0101 ∧ wchar ≤ 0x012F) ∧ wchar % 2 = 1 then wchar % 2 ^ 16 - 0x0001
  else if wchar ≥ 0x0430 ∧ wchar ≤ 0x044F then wchar % 2 ^ 16 - 0x0020
  else if wchar = 0x0451 then 0x0401
  else wchar

/-- `wcharToUpperOnlyLatin` -/
def wcharToUpperOnlyLatin (wchar : ℕ) : ℕ :=
  if isBasicLatinCharacter wchar then wcharToUpper wchar else wchar

/-- `MAX_ACCOUNT_STR` -/
def maxAccountStr : ℕ :=
  16

/-- `AccountMgr::normalizeString`, with what is in its buffer before. -/
def normalizeString (buffer : List ℕ) (utf8String : List UInt8) :
    Option (Bool × List UInt8) := do
  let r ← utf8toWStr utf8String buffer maxAccountStr
  if r.ok then
    wStrToUtf8 ((r.wstr.take r.wsize).map wcharToUpperOnlyLatin ++ r.wstr.drop r.wsize) r.wsize
  else return (false, utf8String)

/-! ## What is stored -/

/-- The code points above 0xFFFF. -/
def supplementary (cps : List ℕ) : ℕ :=
  cps.countP (0xffff < ·)

theorem length_units (cp : ℕ) : (units cp).length = 1 + if 0xffff < cp then 1 else 0 := by
  unfold units
  split_ifs <;> rfl

/-- A code point above 0xFFFF has one unit more. -/
theorem length_flatMap_units (cps : List ℕ) :
    (cps.flatMap units).length = cps.length + supplementary cps := by
  induction cps with
  | nil => rfl
  | cons cp cps ih =>
    rw [supplementary] at ih ⊢
    rw [flatMap_cons, length_append, ih, length_units, length_cons,
      countP_cons]
    split_ifs <;> simp_all <;> omega

variable {cps : List ℕ}

theorem flatMap_units_of_supplementary (h : supplementary cps = 0) : cps.flatMap units = cps := by
  rw [supplementary, countP_eq_zero] at h
  induction cps with
  | nil => rfl
  | cons cp cps ih =>
    obtain ⟨hcp, hcps⟩ := forall_mem_cons.1 h
    have hle : cp ≤ 0xffff := by
      rwa [decide_eq_true_eq, not_lt] at hcp
    rw [flatMap_cons, ih hcps, units_of_le hle]
    rfl

theorem unit_lt {u : ℕ} (h : u ∈ cps.flatMap units) : u < 2 ^ 16 := by
  obtain ⟨cp, -, hu⟩ := mem_flatMap.1 h
  unfold units at hu
  split_ifs at hu
  · rcases mem_pair.1 hu with hu | hu <;> rw [hu] <;> exact Nat.mod_lt _ (Nat.two_pow_pos 16)
  · rw [mem_singleton.1 hu]
    exact Nat.mod_lt _ (Nat.two_pow_pos 16)

variable {wstr : List ℕ} {s : List UInt8}

/-- A buffer of `n + 1` units. -/
theorem noWStr_eq {n : ℕ} (h : wstr.length = n + 1) (wsize : ℕ) :
    ∃ wstr', noWStr wstr wsize = some ⟨false, wstr', 0⟩ := by
  unfold noWStr
  split_ifs
  · rw [store, if_pos (by omega)]
    exact ⟨_, rfl⟩
  · exact ⟨_, rfl⟩

theorem wsize_of_noWStr {wsize : ℕ} {r : WideResult} (h : noWStr wstr wsize = some r) :
    r.wsize = 0 := by
  unfold noWStr at h
  split_ifs at h <;> obtain ⟨wstr', -, h⟩ := bind_eq_some_iff.1 h <;> cases h <;> rfl

theorem utf8toWStr_of_encodes {wsize : ℕ} (h : Encodes cps s) (hle : cps.length ≤ wsize) :
    utf8toWStr s wstr wsize = (storeAll (cps.flatMap units) wstr).bind fun wstr =>
      (store cps.length 0 wstr).map fun wstr => ⟨true, wstr, cps.length⟩ := by
  have hdistance : distance s = .ok cps.length := distance_eq_ok_iff.2 ⟨cps, h, rfl⟩
  rw [utf8toWStr, hdistance]
  simp only
  rw [if_neg (by omega), utf8to16_octets h]
  refine bind_congr fun wstr' _ => ?_
  cases store cps.length 0 wstr' <;> rfl

/-- A string that is not well formed or has too many code points is refused. -/
theorem utf8toWStr_of_not_encodes {wsize : ℕ} (h : ∀ cps, Encodes cps s → wsize < cps.length) :
    utf8toWStr s wstr wsize = noWStr wstr wsize := by
  unfold utf8toWStr
  cases hdistance : distance s with
  | error e => rfl
  | ok n =>
    obtain ⟨cps, hcps, rfl⟩ := distance_eq_ok_iff.1 hdistance
    exact if_pos (h cps hcps)

/-- No store is outside of the buffer exactly when the units of a string that is taken fit into
it. -/
theorem utf8toWStr_ne_none_iff {n : ℕ} (h : wstr.length = n + 1) :
    utf8toWStr s wstr n ≠ none ↔
      ∀ cps, Encodes cps s → cps.length ≤ n → cps.length + supplementary cps ≤ n + 1 := by
  by_cases htaken : ∃ cps, Encodes cps s ∧ cps.length ≤ n
  · obtain ⟨cps, hcps, hle⟩ := htaken
    rw [utf8toWStr_of_encodes hcps hle, storeAll, length_flatMap_units, h]
    split_ifs with hfits
    · have hlength : (cps.flatMap units ++ wstr.drop (cps.length + supplementary cps)).length =
          n + 1 := by
        rw [length_append, length_flatMap_units, length_drop, h]
        omega
      rw [bind_some, store, hlength, if_pos (by omega)]
      refine iff_of_true (some_ne_none _) fun cps' hcps' _ => ?_
      rw [hcps'.unique hcps]
      exact hfits
    · refine iff_of_false (fun hne => hne rfl) fun hall => hfits (hall cps hcps hle)
  · have hnot : ∀ cps, Encodes cps s → n < cps.length := fun cps hcps =>
      Nat.lt_of_not_le fun hle => htaken ⟨cps, hcps, hle⟩
    obtain ⟨wstr', heq⟩ := noWStr_eq h n
    rw [utf8toWStr_of_not_encodes hnot, heq]
    exact iff_of_true (some_ne_none _) fun cps hcps hle =>
      absurd hle (Nat.not_le.2 (hnot cps hcps))

theorem storeAll_eq {α : Type} {l buf : List α} (h : l.length ≤ buf.length) :
    storeAll l buf = some (l ++ buf.drop l.length) :=
  if_pos h

theorem resize_append {α : Type} (l l' : List α) (v : α) : resize l.length v (l ++ l') = l := by
  rw [resize, take_left, length_append, Nat.sub_eq_zero_of_le (Nat.le_add_right _ _)]
  exact append_nil l

theorem length_resize {α : Type} (n : ℕ) (v : α) (s : List α) : (resize n v s).length = n := by
  rw [resize, length_append, length_take, length_replicate]
  omega

/-- A `std::wstring` gets the code points of a string, or is overrun. -/
theorem utf8toWString_eq {s : List UInt8} {cps : List ℕ} (h : Encodes cps s) (hne : cps ≠ [])
    (wstr : List ℕ) :
    utf8toWString s wstr = if supplementary cps = 0 then some (true, cps) else none := by
  have hdistance : distance s = .ok cps.length := distance_eq_ok_iff.2 ⟨cps, h, rfl⟩
  have hlength : cps.length ≠ 0 := fun h => hne (eq_nil_of_length_eq_zero h)
  rw [utf8toWString, hdistance]
  simp only
  rw [if_pos hlength, utf8to16_octets h]
  by_cases hnone : supplementary cps = 0
  · have hroom : cps.length ≤ (resize cps.length 0 wstr).length :=
      Nat.le_of_eq (length_resize _ _ _).symm
    rw [if_pos hnone, flatMap_units_of_supplementary hnone, storeAll_eq hroom,
      drop_of_length_le (Nat.le_of_eq (length_resize _ _ _)), append_nil]
    rfl
  · have hover : ¬(cps.flatMap units).length ≤ (resize cps.length 0 wstr).length := by
      rw [length_flatMap_units, length_resize]
      omega
    rw [if_neg hnone, storeAll, if_neg hover]
    rfl

theorem utf8toWString_letter : utf8toWString [0xC3, 0xA9] [0x61, 0x62] = some (true, [0xE9]) :=
  @utf8toWString_eq _ [0xE9] ⟨by decide +kernel, by decide +kernel⟩ (by decide) [0x61, 0x62]

/-! ## There and back -/

/-- What a conversion back answers. -/
def answer (r : Output UInt8) : Bool × List UInt8 :=
  if r.2.isSome then (false, []) else (true, r.1)

theorem wStrToUtf8_eq {size : ℕ} (h : size ≤ wstr.length) :
    wStrToUtf8 wstr size = some (answer (utf16to8 (wstr.take size))) := by
  have hroom : (utf16to8 (wstr.take size)).1.length ≤
      (resize (size * 4) (0 : UInt8) []).length := by
    refine le_trans (length_utf16to8_le _) ?_
    rw [length_resize, length_take]
    omega
  rw [wStrToUtf8, if_neg (not_lt.2 h)]
  by_cases hsize : size = 0
  · subst hsize
    rfl
  · simp only [ne_eq, hsize, not_false_eq_true, if_true, storeAll_eq hroom]
    simp only [bind_eq_bind, bind_some, resize_append]
    unfold answer
    split_ifs <;> rfl

/-- A string that was taken comes back. -/
def ComesBack (utf8str : List UInt8) (wstr : List ℕ) (n : ℕ) : Prop :=
  ∀ r, utf8toWStr utf8str wstr n = some r → r.ok = true →
    wStrToUtf8 r.wstr r.wsize = some (true, utf8str)

theorem answer_eq_iff {x : List ℕ} (hx : ∀ u ∈ x, u < 2 ^ 16) :
    answer (utf16to8 x) = (true, s) ↔ ∃ cps, Encodes cps s ∧ x = cps.flatMap units := by
  unfold answer
  constructor
  · intro h
    cases he : (utf16to8 x).2 with
    | some e =>
      rw [he] at h
      cases h
    | none =>
      obtain ⟨cps, hcps, rfl⟩ := eq_units_of_utf16to8 hx he
      rw [utf16to8_units hcps] at h
      cases h
      exact ⟨cps, ⟨hcps, rfl⟩, rfl⟩
  · rintro ⟨cps, ⟨hcps, rfl⟩, rfl⟩
    rw [utf16to8_units hcps]
    rfl

/-- Some first units of a string are the units of it exactly when they are all. -/
theorem answer_take_iff (h : Encodes cps s) (k : ℕ) :
    answer (utf16to8 ((cps.flatMap units).take k)) = (true, s) ↔
      cps.length + supplementary cps ≤ k := by
  rw [answer_eq_iff fun u hu => unit_lt (mem_of_mem_take hu), ← length_flatMap_units]
  constructor
  · rintro ⟨cps', hcps', heq⟩
    rw [hcps'.unique h] at heq
    have hlength := congrArg List.length heq
    rw [length_take] at hlength
    omega
  · exact fun hle => ⟨cps, h, take_of_length_le hle⟩

/-- A string that is taken comes back exactly when it has no code point above 0xFFFF, unless its
units overrun the buffer. -/
theorem comesBack_iff {n : ℕ} (h : wstr.length = n + 1) :
    ComesBack s wstr n ↔
      ∀ cps, Encodes cps s → cps.length ≤ n → cps.length + supplementary cps ≤ n + 1 →
        supplementary cps = 0 := by
  by_cases htaken : ∃ cps, Encodes cps s ∧ cps.length ≤ n
  · obtain ⟨cps, hcps, hle⟩ := htaken
    have hall : (∀ cps', Encodes cps' s → cps'.length ≤ n →
        cps'.length + supplementary cps' ≤ n + 1 → supplementary cps' = 0) ↔
          (cps.length + supplementary cps ≤ n + 1 → supplementary cps = 0) :=
      ⟨fun hall => hall cps hcps hle, fun hone cps' hcps' _ => hcps'.unique hcps ▸ hone⟩
    rw [hall, ComesBack, utf8toWStr_of_encodes hcps hle]
    by_cases hfits : cps.length + supplementary cps ≤ n + 1
    · have hstored : (cps.flatMap units).length ≤ wstr.length := by
        rwa [length_flatMap_units, h]
      have hroom : cps.length <
          (cps.flatMap units ++ wstr.drop (cps.flatMap units).length).length := by
        rw [length_append, length_drop]
        omega
      have htake : ((cps.flatMap units ++ wstr.drop (cps.flatMap units).length).set cps.length
          0).take cps.length = (cps.flatMap units).take cps.length := by
        rw [take_set_of_le Nat.le.refl, take_append_of_le_length]
        rw [length_flatMap_units]
        exact Nat.le_add_right _ _
      rw [storeAll_eq hstored, bind_some, store, if_pos hroom, map_some]
      simp only [some.injEq, forall_eq', true_implies, hfits]
      rw [wStrToUtf8_eq (by rw [length_set]; omega), htake, some.injEq,
        answer_take_iff hcps]
      omega
    · have hover : ¬(cps.flatMap units).length ≤ wstr.length := by
        rwa [length_flatMap_units, h]
      rw [storeAll, if_neg hover]
      exact iff_of_true (fun r hr => nomatch hr) fun hle => absurd hle hfits
  · have hnot : ∀ cps, Encodes cps s → n < cps.length := fun cps hcps =>
      Nat.lt_of_not_le fun hle => htaken ⟨cps, hcps, hle⟩
    obtain ⟨wstr', heq⟩ := noWStr_eq h n
    rw [ComesBack, utf8toWStr_of_not_encodes hnot, heq]
    refine iff_of_true ?_ fun cps hcps hle => absurd hle (Nat.not_le.2 (hnot cps hcps))
    rintro r ⟨⟩ hok
    cases hok

/-! ## Truncation -/

/-- A well-formed string is cut to its first code points. -/
def Truncates (utf8str : List UInt8) (len : ℕ) : Prop :=
  ∀ cps, Encodes cps utf8str →
    utf8truncate utf8str len = some ((cps.take len).flatMap octets)

theorem length_flatMap_take_le (cps : List ℕ) (len : ℕ) :
    ((cps.take len).flatMap octets).length ≤ (cps.flatMap octets).length := by
  conv_rhs => rw [← take_append_drop len cps, flatMap_append, length_append]
  exact Nat.le_add_right _ _

/-- A string that has to be cut is cut to its first code points exactly when it has no code point
above 0xFFFF. -/
theorem truncates_iff {len : ℕ} :
    Truncates s len ↔
      ∀ cps, Encodes cps s → len < cps.length → supplementary cps = 0 := by
  refine forall₂_congr fun cps hcps => ?_
  have hdistance : distance s = .ok cps.length := distance_eq_ok_iff.2 ⟨cps, hcps, rfl⟩
  rw [utf8truncate, hdistance]
  simp only
  by_cases hle : cps.length ≤ len
  · rw [if_pos hle, take_of_length_le hle, ← hcps.eq]
    exact iff_of_true rfl fun hlt => absurd hle (Nat.not_le.2 hlt)
  have hlt : len < cps.length := Nat.lt_of_not_le hle
  have hroom : (resize cps.length 0 ([] : List ℕ)).length = cps.length := length_resize _ _ _
  rw [if_neg hle, utf8to16_octets hcps]
  by_cases hnone : supplementary cps = 0
  · refine iff_of_true ?_ fun _ => hnone
    have hunits := flatMap_units_of_supplementary hnone
    have hfirst : supplementary (cps.take len) = 0 :=
      Nat.le_zero.1 (hnone ▸ (take_sublist len cps).countP_le)
    have hvalid : ∀ cp ∈ cps.take len, isCodePointValid cp := fun cp hcp =>
      hcps.valid cp (mem_of_mem_take hcp)
    have hwstr : resize len 0 (cps ++ (resize cps.length 0 []).drop cps.length) =
        (cps.take len).flatMap units := by
      rw [flatMap_units_of_supplementary hfirst, drop_of_length_le (Nat.le_of_eq hroom),
        append_nil, resize, Nat.sub_eq_zero_of_le (Nat.le_of_lt hlt)]
      exact append_nil _
    have hshort : ((cps.take len).flatMap octets).length ≤ s.length :=
      hcps.eq ▸ length_flatMap_take_le cps len
    rw [hunits, storeAll_eq (Nat.le_of_eq hroom.symm)]
    simp only [bind_eq_bind, bind_some, isSome_none, Bool.false_eq_true,
      if_false, hwstr, utf16to8_units hvalid, storeAll_eq hshort, resize_append]
  · have hover : ¬(cps.flatMap units).length ≤ (resize cps.length 0 ([] : List ℕ)).length := by
      rw [length_flatMap_units, hroom]
      omega
    rw [storeAll, if_neg hover]
    exact iff_of_false (nofun) fun h => hnone (h hlt)

/-! ## Account names in their buffer -/

/-- The size that is reported is within the buffer. -/
theorem wsize_le {n : ℕ} {r : WideResult} (h : utf8toWStr s wstr n = some r) :
    r.wsize ≤ r.wstr.length := by
  by_cases htaken : ∃ cps, Encodes cps s ∧ cps.length ≤ n
  · obtain ⟨cps, hcps, hle⟩ := htaken
    rw [utf8toWStr_of_encodes hcps hle] at h
    obtain ⟨wstr', -, h⟩ := bind_eq_some_iff.1 h
    obtain ⟨wstr'', hstore, rfl⟩ := map_eq_some_iff.1 h
    unfold store at hstore
    split_ifs at hstore with hlt
    cases hstore
    rw [length_set]
    exact Nat.le_of_lt hlt
  · rw [utf8toWStr_of_not_encodes fun cps hcps =>
      Nat.lt_of_not_le fun hle => htaken ⟨cps, hcps, hle⟩] at h
    rw [wsize_of_noWStr h]
    exact Nat.zero_le _

/-- An account name overruns the buffer of `normalizeString` exactly when it has at most sixteen
code points and more than seventeen units. -/
theorem normalizeString_eq_none_iff {buffer : List ℕ} (h : buffer.length = maxAccountStr + 1)
    {s : List UInt8} :
    normalizeString buffer s = none ↔
      ∃ cps, Encodes cps s ∧ cps.length ≤ 16 ∧ 17 < cps.length + supplementary cps := by
  have hdefined : normalizeString buffer s = none ↔ utf8toWStr s buffer maxAccountStr = none := by
    unfold normalizeString
    cases hwide : utf8toWStr s buffer maxAccountStr with
    | none => exact iff_of_true rfl rfl
    | some r =>
      have hsize := wsize_le hwide
      refine iff_of_false ?_ (some_ne_none r)
      simp only [bind_eq_bind, bind_some]
      split_ifs
      · rw [wStrToUtf8_eq]
        · exact some_ne_none _
        · rw [length_append, length_map, length_take, length_drop]
          omega
      · exact not_false
  rw [hdefined, ← not_iff_not, ← ne_eq, utf8toWStr_ne_none_iff h]
  simp only [not_exists, not_and, not_lt]
  rfl

/-- Nine code points above 0xFFFF. -/
theorem normalizeString_nine :
    normalizeString (.replicate 17 0) (.flatten (.replicate 9 [0xF0, 0x9F, 0x98, 0x80])) = none :=
  (normalizeString_eq_none_iff (by decide)).2
    ⟨.replicate 9 0x1F600, ⟨by decide +kernel, by decide +kernel⟩, by decide, by decide⟩

/-! ## The three properties -/

/-- For every string, every capacity and what is in the buffer before: no store is outside of the
buffer exactly when the units of a string that is taken fit into it, a string that is taken comes
back exactly when none of its code points is above 0xFFFF, unless its units overrun the buffer, and
a string that has to be cut is cut to its first code points exactly when none of its code points
is. -/
theorem utf8_conversion_iff (s : List UInt8) (n len : ℕ) (wstr : List ℕ) (h : wstr.length = n + 1) :
    (utf8toWStr s wstr n ≠ none ↔
      ∀ cps, Encodes cps s → cps.length ≤ n → cps.length + supplementary cps ≤ n + 1) ∧
    (ComesBack s wstr n ↔
      ∀ cps, Encodes cps s → cps.length ≤ n → cps.length + supplementary cps ≤ n + 1 →
        supplementary cps = 0) ∧
    (Truncates s len ↔ ∀ cps, Encodes cps s → len < cps.length → supplementary cps = 0) :=
  ⟨utf8toWStr_ne_none_iff h, comesBack_iff h, truncates_iff⟩

/-- An accented letter in a buffer for two units. -/
theorem utf8_conversion_iff_letter :
    (utf8toWStr [0xC3, 0xA9] [0, 0, 0] 2 ≠ none ↔
      ∀ cps, Encodes cps [0xC3, 0xA9] → cps.length ≤ 2 → cps.length + supplementary cps ≤ 2 + 1) ∧
    (ComesBack [0xC3, 0xA9] [0, 0, 0] 2 ↔
      ∀ cps, Encodes cps [0xC3, 0xA9] → cps.length ≤ 2 → cps.length + supplementary cps ≤ 2 + 1 →
        supplementary cps = 0) ∧
    (Truncates [0xC3, 0xA9] 1 ↔
      ∀ cps, Encodes cps [0xC3, 0xA9] → 1 < cps.length → supplementary cps = 0) :=
  utf8_conversion_iff [0xC3, 0xA9] 2 1 [0, 0, 0] rfl

/-- Two code points above 0xFFFF overrun a buffer for two units, one of them does not come back from
such a buffer, and it cannot be cut off. -/
theorem not_utf8_conversion_supplementary :
    utf8toWStr [0xF0, 0x9F, 0x98, 0x80, 0xF0, 0x9F, 0x98, 0x80] [0, 0, 0] 2 = none ∧
      ¬ComesBack [0xF0, 0x9F, 0x98, 0x80] [0, 0, 0] 2 ∧
      ¬Truncates [0xF0, 0x9F, 0x98, 0x80, 0x61] 1 := by
  refine ⟨by decide +kernel, fun h => ?_, fun h => ?_⟩
  · have hback := h ⟨true, [0xD83D, 0, 0], 1⟩ (by decide +kernel) rfl
    exact absurd hback (by decide +kernel)
  · have hcut := h [0x1F600, 0x61] ⟨by decide +kernel, by decide +kernel⟩
    exact absurd hcut (by decide +kernel)

end MistyWorld
