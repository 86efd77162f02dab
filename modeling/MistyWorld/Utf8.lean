import MistyWorld.Bytes
import Mathlib.Tactic.SplitIfs

/-!
# UTF-8 and UTF-16

The conversions of the `utf8` library. `next` takes a code point off a string of bytes, and fails on
a sequence that is cut off, not well formed, longer than needed or not of a code point.
`utf8to16` puts out one unit for a code point of the basic plane and a pair of surrogates for one
above, and `utf16to8` goes back. Both have put out some of the result when they fail.

A string is well formed when it has the `octets` of code points one after the other, and these are
unique. Then `distance` counts them (`distance_eq_ok_iff`), and the two conversions are inverse
(`utf8to16_octets`, `utf16to8_units`). Whatever is converted without failure is of this form
(`distance_eq_ok_iff`, `eq_units_of_utf16to8`).
-/

open List

namespace Utf8

/-! ## The library -/

/-- `LEAD_SURROGATE_MIN` -/
def leadSurrogateMin : ℕ :=
  0xd800

/-- `LEAD_SURROGATE_MAX` -/
def leadSurrogateMax : ℕ :=
  0xdbff

/-- `TRAIL_SURROGATE_MIN` -/
def trailSurrogateMin : ℕ :=
  0xdc00

/-- `TRAIL_SURROGATE_MAX` -/
def trailSurrogateMax : ℕ :=
  0xdfff

/-- `LEAD_OFFSET` -/
def leadOffset : ℕ :=
  leadSurrogateMin - (0x10000 >>> 10)

/-- `SURROGATE_OFFSET`, in 32 bits. -/
def surrogateOffset : ℕ :=
  0x10000 + (2 ^ 32 - (leadSurrogateMin <<< 10) - trailSurrogateMin)

/-- `CODE_POINT_MAX` -/
def codePointMax : ℕ :=
  0x0010ffff

/-- `mask16` -/
def mask16 (oc : ℕ) : ℕ :=
  0xffff &&& oc

/-- `is_trail` -/
def isTrail (oc : UInt8) : Prop :=
  oc.toNat >>> 6 = 0x2

instance : DecidablePred isTrail := fun oc =>
  inferInstanceAs (Decidable (oc.toNat >>> 6 = 0x2))

/-- `is_lead_surrogate` -/
def isLeadSurrogate (cp : ℕ) : Prop :=
  cp ≥ leadSurrogateMin ∧ cp ≤ leadSurrogateMax

/-- `is_trail_surrogate` -/
def isTrailSurrogate (cp : ℕ) : Prop :=
  cp ≥ trailSurrogateMin ∧ cp ≤ trailSurrogateMax

/-- `is_surrogate` -/
def isSurrogate (cp : ℕ) : Prop :=
  cp ≥ leadSurrogateMin ∧ cp ≤ trailSurrogateMax

/-- `is_code_point_valid` -/
def isCodePointValid (cp : ℕ) : Prop :=
  cp ≤ codePointMax ∧ ¬isSurrogate cp

instance : DecidablePred isLeadSurrogate := fun _ => inferInstanceAs (Decidable (_ ∧ _))
instance : DecidablePred isTrailSurrogate := fun _ => inferInstanceAs (Decidable (_ ∧ _))
instance : DecidablePred isSurrogate := fun _ => inferInstanceAs (Decidable (_ ∧ _))
instance : DecidablePred isCodePointValid := fun _ => inferInstanceAs (Decidable (_ ∧ ¬_))

/-- `sequence_length` -/
def sequenceLength (lead : UInt8) : ℕ :=
  if lead.toNat < 0x80 then 1
  else if lead.toNat >>> 5 = 0x6 then 2
  else if lead.toNat >>> 4 = 0xe then 3
  else if lead.toNat >>> 3 = 0x1e then 4
  else 0

/-- `is_overlong_sequence` -/
def isOverlongSequence (cp length : ℕ) : Prop :=
  if cp < 0x80 then length ≠ 1
  else if cp < 0x800 then length ≠ 2
  else if cp < 0x10000 then length ≠ 3
  else False

instance (cp length : ℕ) : Decidable (isOverlongSequence cp length) := by
  unfold isOverlongSequence
  infer_instance

/-- `utf_error`, without `UTF8_OK`. -/
inductive UtfError
  | notEnoughRoom
  | invalidLead
  | incompleteSequence
  | overlongSequence
  | invalidCodePoint
  deriving DecidableEq, Repr

/-- The exceptions of the library. -/
inductive Exception
  | notEnoughRoom
  | invalidUtf8
  | invalidUtf16
  | invalidCodePoint
  deriving DecidableEq, Repr

/-- `increase_safely`, with what comes behind the octet. -/
def increaseSafely : List UInt8 → Except UtfError (UInt8 × List UInt8)
  | [] => .error .notEnoughRoom
  | oc :: it => if isTrail oc then .ok (oc, it) else .error .incompleteSequence

/-- `get_sequence_1` -/
def getSequence1 (lead : UInt8) (it : List UInt8) : Except UtfError (ℕ × List UInt8) :=
  .ok (lead.toNat, it)

/-- `get_sequence_2` -/
def getSequence2 (lead : UInt8) (it : List UInt8) : Except UtfError (ℕ × List UInt8) := do
  let (oc, it) ← increaseSafely it
  return (((lead.toNat <<< 6) &&& 0x7ff) + (oc.toNat &&& 0x3f), it)

/-- `get_sequence_3` -/
def getSequence3 (lead : UInt8) (it : List UInt8) : Except UtfError (ℕ × List UInt8) := do
  let (oc, it) ← increaseSafely it
  let codePoint := ((lead.toNat <<< 12) &&& 0xffff) + ((oc.toNat <<< 6) &&& 0xfff)
  let (oc, it) ← increaseSafely it
  return (codePoint + (oc.toNat &&& 0x3f), it)

/-- `get_sequence_4` -/
def getSequence4 (lead : UInt8) (it : List UInt8) : Except UtfError (ℕ × List UInt8) := do
  let (oc, it) ← increaseSafely it
  let codePoint := ((lead.toNat <<< 18) &&& 0x1fffff) + ((oc.toNat <<< 12) &&& 0x3ffff)
  let (oc, it) ← increaseSafely it
  let codePoint := codePoint + ((oc.toNat <<< 6) &&& 0xfff)
  let (oc, it) ← increaseSafely it
  return (codePoint + (oc.toNat &&& 0x3f), it)

/-- The octets of a sequence, by its length. -/
def getSequence (length : ℕ) (lead : UInt8) (it : List UInt8) :
    Except UtfError (ℕ × List UInt8) :=
  match length with
  | 1 => getSequence1 lead it
  | 2 => getSequence2 lead it
  | 3 => getSequence3 lead it
  | 4 => getSequence4 lead it
  | _ => .error .invalidLead

/-- `validate_next`. It is not called at the end of a string. -/
def validateNext : List UInt8 → Except UtfError (ℕ × List UInt8)
  | [] => .error .notEnoughRoom
  | lead :: it => do
    let length := sequenceLength lead
    let (cp, it) ← getSequence length lead it
    if isCodePointValid cp then
      if isOverlongSequence cp length then .error .overlongSequence else .ok (cp, it)
    else .error .invalidCodePoint

/-- `next` -/
def next (it : List UInt8) : Except Exception (ℕ × List UInt8) :=
  match validateNext it with
  | .ok r => .ok r
  | .error .notEnoughRoom => .error .notEnoughRoom
  | .error .invalidLead => .error .invalidUtf8
  | .error .incompleteSequence => .error .invalidUtf8
  | .error .overlongSequence => .error .invalidUtf8
  | .error .invalidCodePoint => .error .invalidCodePoint

/-- The octets that `append` puts out. -/
def octets (cp : ℕ) : List UInt8 :=
  if cp < 0x80 then [UInt8.ofNat cp]
  else if cp < 0x800 then [UInt8.ofNat ((cp >>> 6) ||| 0xc0), UInt8.ofNat ((cp &&& 0x3f) ||| 0x80)]
  else if cp < 0x10000 then
    [UInt8.ofNat ((cp >>> 12) ||| 0xe0), UInt8.ofNat (((cp >>> 6) &&& 0x3f) ||| 0x80),
      UInt8.ofNat ((cp &&& 0x3f) ||| 0x80)]
  else
    [UInt8.ofNat ((cp >>> 18) ||| 0xf0), UInt8.ofNat (((cp >>> 12) &&& 0x3f) ||| 0x80),
      UInt8.ofNat (((cp >>> 6) &&& 0x3f) ||| 0x80), UInt8.ofNat ((cp &&& 0x3f) ||| 0x80)]

/-- `append` -/
def append (cp : ℕ) : Except Exception (List UInt8) :=
  if isCodePointValid cp then .ok (octets cp) else .error .invalidCodePoint

/-- The loop of `distance`. Each turn takes an octet at least. -/
def distanceLoop : ℕ → List UInt8 → ℕ → Except Exception ℕ
  | 0, _, dist => .ok dist
  | turns + 1, first, dist =>
    if first = [] then .ok dist
    else do
      let (_, first) ← next first
      distanceLoop turns first (dist + 1)

/-- `distance` -/
def distance (first : List UInt8) : Except Exception ℕ :=
  distanceLoop first.length first 0

/-- What a conversion has put out when it ends, and the exception that ended it. -/
abbrev Output (α : Type) := List α × Option Exception

/-- The output behind what was put out before. -/
def Output.after {α : Type} (l : List α) (r : Output α) : Output α :=
  (l ++ r.1, r.2)

/-- The units that `utf8to16` puts out for a code point. -/
def units (cp : ℕ) : List ℕ :=
  if cp > 0xffff then
    [((cp >>> 10) + leadOffset) % 2 ^ 16, ((cp &&& 0x3ff) + trailSurrogateMin) % 2 ^ 16]
  else [cp % 2 ^ 16]

/-- The loop of `utf8to16`. -/
def utf8to16Loop : ℕ → List UInt8 → Output ℕ
  | 0, _ => ([], none)
  | turns + 1, start =>
    if start = [] then ([], none)
    else
      match next start with
      | .error e => ([], some e)
      | .ok (cp, start) => (utf8to16Loop turns start).after (units cp)

/-- `utf8to16` -/
def utf8to16 (start : List UInt8) : Output ℕ :=
  utf8to16Loop start.length start

/-- `append` in the loop of `utf16to8`. -/
def Output.append (cp : ℕ) (r : Output UInt8) : Output UInt8 :=
  match Utf8.append cp with
  | .error e => ([], some e)
  | .ok l => r.after l

/-- `utf16to8` -/
def utf16to8 : List ℕ → Output UInt8
  | [] => ([], none)
  | unit :: start =>
    let cp := mask16 unit
    if isLeadSurrogate cp then
      match start with
      | [] => ([], some .invalidUtf16)
      | unit :: start =>
        let trailSurrogate := mask16 unit
        if isTrailSurrogate trailSurrogate then
          (utf16to8 start).append (((cp <<< 10) + trailSurrogate + surrogateOffset) % 2 ^ 32)
        else ([], some .invalidUtf16)
    else if isTrailSurrogate cp then ([], some .invalidUtf16)
    else (utf16to8 start).append cp

/-! ## Octets as numbers -/

theorem isTrail_iff {oc : UInt8} : isTrail oc ↔ 0x80 ≤ oc.toNat ∧ oc.toNat < 0xc0 := by
  rw [isTrail, Nat.shiftRight_eq_div_pow]
  omega

theorem sequenceLength_eq (lead : UInt8) :
    sequenceLength lead =
      if lead.toNat < 0x80 then 1 else if lead.toNat < 0xc0 then 0
      else if lead.toNat < 0xe0 then 2 else if lead.toNat < 0xf0 then 3
      else if lead.toNat < 0xf8 then 4 else 0 := by
  have hlead := lead.toNat_lt
  simp only [sequenceLength, Nat.shiftRight_eq_div_pow]
  split_ifs <;> omega

/-- The octet that follows a lead. -/
theorem trail_eq (n : ℕ) : (n &&& 0x3f) ||| 0x80 = n % 64 + 0x80 := by
  rw [show (0x3f : ℕ) = 2 ^ 6 - 1 from rfl, Nat.and_two_pow_sub_one_eq_mod]
  exact Bytes.or_shiftLeft 2 (k := 6) (by omega)

variable {cp n : ℕ} {s rest it : List UInt8} {cps : List ℕ} {lead : UInt8}

theorem octets_one (h : cp < 0x80) : octets cp = [UInt8.ofNat cp] :=
  if_pos h

theorem octets_two (h : 0x80 ≤ cp) (hlt : cp < 0x800) :
    octets cp = [UInt8.ofNat (cp / 64 + 0xc0), UInt8.ofNat (cp % 64 + 0x80)] := by
  have hlead : (cp >>> 6) ||| 0xc0 = cp / 64 + 0xc0 := by
    rw [Nat.shiftRight_eq_div_pow]
    exact Bytes.or_shiftLeft 3 (k := 6) (by omega)
  rw [octets, if_neg (by omega), if_pos hlt, hlead, trail_eq]

theorem octets_three (h : 0x800 ≤ cp) (hlt : cp < 0x10000) :
    octets cp = [UInt8.ofNat (cp / 4096 + 0xe0), UInt8.ofNat (cp / 64 % 64 + 0x80),
      UInt8.ofNat (cp % 64 + 0x80)] := by
  have hlead : (cp >>> 12) ||| 0xe0 = cp / 4096 + 0xe0 := by
    rw [Nat.shiftRight_eq_div_pow]
    exact Bytes.or_shiftLeft 7 (k := 5) (by omega)
  rw [octets, if_neg (by omega), if_neg (by omega), if_pos hlt, hlead, trail_eq, trail_eq,
    Nat.shiftRight_eq_div_pow]

theorem octets_four (h : 0x10000 ≤ cp) (hle : cp ≤ codePointMax) :
    octets cp = [UInt8.ofNat (cp / 262144 + 0xf0), UInt8.ofNat (cp / 4096 % 64 + 0x80),
      UInt8.ofNat (cp / 64 % 64 + 0x80), UInt8.ofNat (cp % 64 + 0x80)] := by
  unfold codePointMax at hle
  have hlead : (cp >>> 18) ||| 0xf0 = cp / 262144 + 0xf0 := by
    rw [Nat.shiftRight_eq_div_pow]
    exact Bytes.or_shiftLeft 15 (k := 4) (by omega)
  rw [octets, if_neg (by omega), if_neg (by omega), if_neg (by omega), hlead, trail_eq, trail_eq,
    trail_eq, Nat.shiftRight_eq_div_pow, Nat.shiftRight_eq_div_pow]

/-! ## Code points off a string -/

/-- An octet of a sequence behind its lead. -/
def Trail (oc : UInt8) : Prop :=
  0x80 ≤ oc.toNat ∧ oc.toNat < 0xc0

/-- What follows `increase_safely` goes on with an octet of the sequence. -/
theorem increaseSafely_bind_iff {α : Type} {k : UInt8 × List UInt8 → Except UtfError α} {r : α} :
    (increaseSafely it >>= k) = .ok r ↔
      ∃ oc rest, it = oc :: rest ∧ Trail oc ∧ k (oc, rest) = .ok r := by
  cases it with
  | nil =>
    constructor
    · intro h
      cases h
    · rintro ⟨oc, rest, h, -⟩
      cases h
  | cons oc it =>
    rw [increaseSafely]
    split_ifs with h <;> rw [isTrail_iff] at h
    · constructor
      · exact fun hk => ⟨oc, it, rfl, h, hk⟩
      · rintro ⟨_, _, ⟨⟩, -, hk⟩
        exact hk
    · constructor
      · intro hk
        cases hk
      · rintro ⟨_, _, ⟨⟩, htrail, -⟩
        exact absurd htrail h

theorem getSequence2_eq_ok_iff :
    getSequence2 lead it = .ok (cp, rest) ↔ ∃ b, it = b :: rest ∧ Trail b ∧
      lead.toNat % 32 * 64 + b.toNat % 64 = cp := by
  have hvalue : ∀ b : UInt8, ((lead.toNat <<< 6) &&& 0x7ff) + (b.toNat &&& 0x3f) =
      lead.toNat % 32 * 64 + b.toNat % 64 := by
    intro b
    rw [show (0x7ff : ℕ) = 2 ^ 11 - 1 from rfl, show (0x3f : ℕ) = 2 ^ 6 - 1 from rfl,
      Nat.and_two_pow_sub_one_eq_mod, Nat.and_two_pow_sub_one_eq_mod, Nat.shiftLeft_eq]
    omega
  simp only [getSequence2, increaseSafely_bind_iff, hvalue]
  constructor
  · rintro ⟨b, it', rfl, hb, ⟨⟩⟩
    exact ⟨b, rfl, hb, rfl⟩
  · rintro ⟨b, rfl, hb, rfl⟩
    exact ⟨b, rest, rfl, hb, rfl⟩

theorem getSequence3_eq_ok_iff :
    getSequence3 lead it = .ok (cp, rest) ↔ ∃ b c, it = b :: c :: rest ∧ Trail b ∧ Trail c ∧
      lead.toNat % 16 * 4096 + b.toNat % 64 * 64 + c.toNat % 64 = cp := by
  have hvalue : ∀ b c : UInt8, ((lead.toNat <<< 12) &&& 0xffff) + ((b.toNat <<< 6) &&& 0xfff) +
      (c.toNat &&& 0x3f) = lead.toNat % 16 * 4096 + b.toNat % 64 * 64 + c.toNat % 64 := by
    intro b c
    rw [show (0xffff : ℕ) = 2 ^ 16 - 1 from rfl, show (0xfff : ℕ) = 2 ^ 12 - 1 from rfl,
      show (0x3f : ℕ) = 2 ^ 6 - 1 from rfl]
    simp only [Nat.and_two_pow_sub_one_eq_mod, Nat.shiftLeft_eq]
    omega
  simp only [getSequence3, increaseSafely_bind_iff, hvalue]
  constructor
  · rintro ⟨b, _, rfl, hb, c, it', rfl, hc, ⟨⟩⟩
    exact ⟨b, c, rfl, hb, hc, rfl⟩
  · rintro ⟨b, c, rfl, hb, hc, rfl⟩
    exact ⟨b, _, rfl, hb, c, rest, rfl, hc, rfl⟩

theorem getSequence4_eq_ok_iff :
    getSequence4 lead it = .ok (cp, rest) ↔ ∃ b c d, it = b :: c :: d :: rest ∧
      Trail b ∧ Trail c ∧ Trail d ∧ lead.toNat % 8 * 262144 + b.toNat % 64 * 4096 +
        c.toNat % 64 * 64 + d.toNat % 64 = cp := by
  have hvalue : ∀ b c d : UInt8,
      ((lead.toNat <<< 18) &&& 0x1fffff) + ((b.toNat <<< 12) &&& 0x3ffff) +
        ((c.toNat <<< 6) &&& 0xfff) + (d.toNat &&& 0x3f) =
      lead.toNat % 8 * 262144 + b.toNat % 64 * 4096 + c.toNat % 64 * 64 + d.toNat % 64 := by
    intro b c d
    rw [show (0x1fffff : ℕ) = 2 ^ 21 - 1 from rfl, show (0x3ffff : ℕ) = 2 ^ 18 - 1 from rfl,
      show (0xfff : ℕ) = 2 ^ 12 - 1 from rfl, show (0x3f : ℕ) = 2 ^ 6 - 1 from rfl]
    simp only [Nat.and_two_pow_sub_one_eq_mod, Nat.shiftLeft_eq]
    omega
  simp only [getSequence4, increaseSafely_bind_iff, hvalue]
  constructor
  · rintro ⟨b, _, rfl, hb, c, _, rfl, hc, d, it', rfl, hd, ⟨⟩⟩
    exact ⟨b, c, d, rfl, hb, hc, hd, rfl⟩
  · rintro ⟨b, c, d, rfl, hb, hc, hd, rfl⟩
    exact ⟨b, _, rfl, hb, c, _, rfl, hc, d, rest, rfl, hd, rfl⟩

/-- A sequence of the length that its lead says. -/
theorem validateNext_cons_iff :
    validateNext (lead :: it) = .ok (cp, rest) ↔
      getSequence (sequenceLength lead) lead it = .ok (cp, rest) ∧ isCodePointValid cp ∧
        ¬isOverlongSequence cp (sequenceLength lead) := by
  rw [validateNext]
  cases h : getSequence (sequenceLength lead) lead it with
  | error e =>
    constructor
    · intro h
      cases h
    · rintro ⟨⟨⟩, -⟩
  | ok r =>
    obtain ⟨cp', it'⟩ := r
    simp only [Except.ok.injEq, Prod.mk.injEq]
    change (if isCodePointValid cp' then if isOverlongSequence cp' (sequenceLength lead) then
      Except.error UtfError.overlongSequence else .ok (cp', it') else .error .invalidCodePoint) =
        Except.ok (cp, rest) ↔ _
    split_ifs with hvalid hlong
    · constructor
      · intro h
        cases h
      · rintro ⟨⟨rfl, -⟩, -, h⟩
        exact absurd hlong h
    · constructor
      · rintro ⟨⟩
        exact ⟨⟨rfl, rfl⟩, hvalid, hlong⟩
      · rintro ⟨⟨rfl, rfl⟩, -⟩
        rfl
    · constructor
      · intro h
        cases h
      · rintro ⟨⟨rfl, -⟩, h, -⟩
        exact absurd h hvalid

theorem isOverlongSequence_iff {length : ℕ} :
    ¬isOverlongSequence cp length ↔ cp < 0x80 ∧ length = 1 ∨
      0x80 ≤ cp ∧ cp < 0x800 ∧ length = 2 ∨ 0x800 ≤ cp ∧ cp < 0x10000 ∧ length = 3 ∨
        0x10000 ≤ cp := by
  unfold isOverlongSequence
  split_ifs
  · omega
  · omega
  · omega
  · exact iff_of_true not_false (by omega)

theorem ofNat_eq {b : UInt8} (h : n = b.toNat) : UInt8.ofNat n = b := by
  rw [h, UInt8.ofNat_toNat]

theorem toNat_ofNat (h : n < 256) : (UInt8.ofNat n).toNat = n := by
  rw [UInt8.toNat_ofNat', Nat.mod_eq_of_lt h]

theorem eq_octets_of_validateNext (h : validateNext s = .ok (cp, rest)) :
    isCodePointValid cp ∧ s = octets cp ++ rest := by
  obtain _ | ⟨lead, it⟩ := s
  · cases h
  obtain ⟨hseq, hvalid, hlong⟩ := validateNext_cons_iff.1 h
  refine ⟨hvalid, ?_⟩
  have hmax := hvalid.1
  rw [isOverlongSequence_iff] at hlong
  have hlength := sequenceLength_eq lead
  split_ifs at hlength with h1 h2 h3 h4 h5
  · rw [hlength] at hseq hlong
    cases hseq
    rw [octets_one h1, UInt8.ofNat_toNat]
    rfl
  · rw [hlength] at hseq
    cases hseq
  · rw [hlength] at hseq hlong
    obtain ⟨b, rfl, hb, hcp⟩ := getSequence2_eq_ok_iff.1 hseq
    obtain ⟨hb1, hb2⟩ := hb
    rw [octets_two (by omega) (by omega), ofNat_eq (b := lead) (by omega),
      ofNat_eq (b := b) (by omega)]
    rfl
  · rw [hlength] at hseq hlong
    obtain ⟨b, c, rfl, ⟨hb1, hb2⟩, ⟨hc1, hc2⟩, hcp⟩ := getSequence3_eq_ok_iff.1 hseq
    rw [octets_three (by omega) (by omega), ofNat_eq (b := lead) (by omega),
      ofNat_eq (b := b) (by omega), ofNat_eq (b := c) (by omega)]
    rfl
  · rw [hlength] at hseq hlong
    obtain ⟨b, c, d, rfl, ⟨hb1, hb2⟩, ⟨hc1, hc2⟩, ⟨hd1, hd2⟩, hcp⟩ :=
      getSequence4_eq_ok_iff.1 hseq
    rw [octets_four (by omega) hmax, ofNat_eq (b := lead) (by omega),
      ofNat_eq (b := b) (by omega), ofNat_eq (b := c) (by omega), ofNat_eq (b := d) (by omega)]
    rfl
  · rw [hlength] at hseq
    cases hseq

/-- The octets of a code point are taken off. -/
theorem validateNext_octets (h : isCodePointValid cp) (rest : List UInt8) :
    validateNext (octets cp ++ rest) = .ok (cp, rest) := by
  have hmax := h.1
  unfold codePointMax at hmax
  rcases Nat.lt_or_ge cp 0x80 with h1 | h1
  · have hlead := toNat_ofNat (n := cp) (by omega)
    have hlength := sequenceLength_eq (UInt8.ofNat cp)
    rw [hlead, if_pos h1] at hlength
    rw [octets_one h1]
    refine validateNext_cons_iff.2 ⟨?_, h, isOverlongSequence_iff.2 (by omega)⟩
    rw [hlength, getSequence, getSequence1, hlead]
    rfl
  rcases Nat.lt_or_ge cp 0x800 with h2 | h2
  · have hlead := toNat_ofNat (n := cp / 64 + 0xc0) (by omega)
    have hb := toNat_ofNat (n := cp % 64 + 0x80) (by omega)
    have hlength := sequenceLength_eq (UInt8.ofNat (cp / 64 + 0xc0))
    rw [hlead, if_neg (by omega), if_neg (by omega), if_pos (by omega)] at hlength
    rw [octets_two h1 h2]
    refine validateNext_cons_iff.2 ⟨?_, h, isOverlongSequence_iff.2 (by omega)⟩
    rw [hlength]
    refine getSequence2_eq_ok_iff.2 ⟨_, rfl, ⟨by omega, by omega⟩, ?_⟩
    omega
  rcases Nat.lt_or_ge cp 0x10000 with h3 | h3
  · have hlead := toNat_ofNat (n := cp / 4096 + 0xe0) (by omega)
    have hb := toNat_ofNat (n := cp / 64 % 64 + 0x80) (by omega)
    have hc := toNat_ofNat (n := cp % 64 + 0x80) (by omega)
    have hlength := sequenceLength_eq (UInt8.ofNat (cp / 4096 + 0xe0))
    rw [hlead, if_neg (by omega), if_neg (by omega), if_neg (by omega), if_pos (by omega)]
      at hlength
    rw [octets_three h2 h3]
    refine validateNext_cons_iff.2 ⟨?_, h, isOverlongSequence_iff.2 (by omega)⟩
    rw [hlength]
    refine getSequence3_eq_ok_iff.2 ⟨_, _, rfl, ⟨by omega, by omega⟩, ⟨by omega, by omega⟩, ?_⟩
    omega
  · have hlead := toNat_ofNat (n := cp / 262144 + 0xf0) (by omega)
    have hb := toNat_ofNat (n := cp / 4096 % 64 + 0x80) (by omega)
    have hc := toNat_ofNat (n := cp / 64 % 64 + 0x80) (by omega)
    have hd := toNat_ofNat (n := cp % 64 + 0x80) (by omega)
    have hlength := sequenceLength_eq (UInt8.ofNat (cp / 262144 + 0xf0))
    rw [hlead, if_neg (by omega), if_neg (by omega), if_neg (by omega), if_neg (by omega),
      if_pos (by omega)] at hlength
    rw [octets_four h3 h.1]
    refine validateNext_cons_iff.2 ⟨?_, h, isOverlongSequence_iff.2 (by omega)⟩
    rw [hlength]
    refine getSequence4_eq_ok_iff.2 ⟨_, _, _, rfl, ⟨by omega, by omega⟩, ⟨by omega, by omega⟩,
      ⟨by omega, by omega⟩, ?_⟩
    omega

/-- `next` takes a code point exactly when the string begins with its octets. -/
theorem next_eq_ok_iff : next s = .ok (cp, rest) ↔ isCodePointValid cp ∧ s = octets cp ++ rest := by
  constructor
  · intro h
    refine eq_octets_of_validateNext ?_
    unfold next at h
    split at h
    · next r hr =>
      cases h
      exact hr
    all_goals cases h
  · rintro ⟨hvalid, rfl⟩
    rw [next, validateNext_octets hvalid]

/-! ## Strings of code points -/

/-- The string has the octets of the code points. -/
structure Encodes (cps : List ℕ) (s : List UInt8) : Prop where
  valid : ∀ cp ∈ cps, isCodePointValid cp
  eq : s = cps.flatMap octets

theorem length_octets_pos (cp : ℕ) : 0 < (octets cp).length := by
  unfold octets
  split_ifs <;> exact Nat.succ_pos _

theorem Encodes.nil : Encodes [] [] :=
  ⟨fun _ h => absurd h not_mem_nil, rfl⟩

theorem encodes_cons_iff :
    Encodes (cp :: cps) s ↔
      ∃ rest, next s = .ok (cp, rest) ∧ Encodes cps rest := by
  constructor
  · rintro ⟨hvalid, rfl⟩
    exact ⟨cps.flatMap octets, next_eq_ok_iff.2 ⟨hvalid cp mem_cons_self, rfl⟩,
      fun c hc => hvalid c (mem_cons_of_mem _ hc), rfl⟩
  · rintro ⟨rest, hnext, hvalid, rfl⟩
    obtain ⟨hcp, rfl⟩ := next_eq_ok_iff.1 hnext
    exact ⟨forall_mem_cons.2 ⟨hcp, hvalid⟩, rfl⟩

theorem encodes_nil_iff : Encodes [] s ↔ s = [] :=
  ⟨fun h => h.eq, fun h => h ▸ .nil⟩

theorem not_encodes_cons_nil : ¬Encodes (cp :: cps) [] := by
  rw [encodes_cons_iff]
  rintro ⟨rest, ⟨⟩, -⟩

/-- The code points of a string are unique. -/
theorem Encodes.unique {cps' : List ℕ} (h : Encodes cps s) (h' : Encodes cps' s) : cps = cps' := by
  induction cps generalizing cps' s with
  | nil =>
    obtain rfl := encodes_nil_iff.1 h
    cases cps' with
    | nil => rfl
    | cons => exact absurd h' not_encodes_cons_nil
  | cons cp cps ih =>
    cases cps' with
    | nil =>
      obtain rfl := encodes_nil_iff.1 h'
      exact absurd h not_encodes_cons_nil
    | cons cp' cps' =>
      obtain ⟨rest, hnext, hrest⟩ := encodes_cons_iff.1 h
      obtain ⟨rest', hnext', hrest'⟩ := encodes_cons_iff.1 h'
      rw [hnext] at hnext'
      cases hnext'
      rw [ih hrest hrest']

/-- What `next` leaves is shorter. -/
theorem length_of_next (h : next s = .ok (cp, rest)) : rest.length < s.length := by
  obtain ⟨-, rfl⟩ := next_eq_ok_iff.1 h
  have := length_octets_pos cp
  rw [length_append]
  omega

theorem distanceLoop_eq_ok_iff {turns dist : ℕ} (hturns : s.length ≤ turns) :
    distanceLoop turns s dist = .ok n ↔ ∃ cps, Encodes cps s ∧ n = dist + cps.length := by
  induction turns generalizing s dist with
  | zero =>
    obtain rfl : s = [] := eq_nil_of_length_eq_zero (Nat.le_zero.1 hturns)
    constructor
    · rintro ⟨⟩
      exact ⟨[], .nil, rfl⟩
    · rintro ⟨cps, hcps, rfl⟩
      rw [hcps.unique .nil]
      rfl
  | succ turns ih =>
    rw [distanceLoop]
    split_ifs with hs
    · subst hs
      constructor
      · rintro ⟨⟩
        exact ⟨[], .nil, rfl⟩
      · rintro ⟨cps, hcps, rfl⟩
        rw [hcps.unique .nil]
        rfl
    · cases hnext : next s with
      | error e =>
        constructor
        · rintro ⟨⟩
        · rintro ⟨_ | ⟨cp, cps⟩, hcps, -⟩
          · exact absurd (encodes_nil_iff.1 hcps) hs
          · obtain ⟨rest, h, -⟩ := encodes_cons_iff.1 hcps
            rw [hnext] at h
            cases h
      | ok r =>
        obtain ⟨cp, rest⟩ := r
        have hlength := length_of_next hnext
        refine (ih (s := rest) (by omega)).trans ⟨?_, ?_⟩
        · rintro ⟨cps, hcps, rfl⟩
          refine ⟨cp :: cps, encodes_cons_iff.2 ⟨rest, hnext, hcps⟩, ?_⟩
          rw [length_cons]
          omega
        · rintro ⟨_ | ⟨cp', cps⟩, hcps, rfl⟩
          · exact absurd (encodes_nil_iff.1 hcps) hs
          · obtain ⟨rest', h, hrest⟩ := encodes_cons_iff.1 hcps
            rw [hnext] at h
            cases h
            refine ⟨cps, hrest, ?_⟩
            rw [length_cons]
            omega

/-- `distance` counts the code points of a string that is well formed, and fails on any other. -/
theorem distance_eq_ok_iff : distance s = .ok n ↔ ∃ cps, Encodes cps s ∧ n = cps.length := by
  rw [distance, distanceLoop_eq_ok_iff Nat.le.refl]
  simp only [Nat.zero_add]

theorem utf8to16Loop_eq {turns : ℕ} (hturns : s.length ≤ turns) (h : Encodes cps s) :
    utf8to16Loop turns s = (cps.flatMap units, none) := by
  induction turns generalizing s cps with
  | zero =>
    obtain rfl : s = [] := eq_nil_of_length_eq_zero (Nat.le_zero.1 hturns)
    rw [h.unique .nil]
    rfl
  | succ turns ih =>
    rw [utf8to16Loop]
    cases cps with
    | nil =>
      rw [if_pos (encodes_nil_iff.1 h)]
      rfl
    | cons cp cps =>
      obtain ⟨rest, hnext, hrest⟩ := encodes_cons_iff.1 h
      have hlength := length_of_next hnext
      have hs : s ≠ [] := by
        rintro rfl
        exact not_encodes_cons_nil h
      rw [if_neg hs, hnext]
      simp only
      rw [ih (by omega) hrest]
      rfl

/-- A well-formed string is converted. -/
theorem utf8to16_octets (h : Encodes cps s) : utf8to16 s = (cps.flatMap units, none) :=
  utf8to16Loop_eq Nat.le.refl h

/-! ## Units -/

theorem units_of_le (h : cp ≤ 0xffff) : units cp = [cp] := by
  rw [units, if_neg (by omega), Nat.mod_eq_of_lt (by omega)]

theorem units_of_lt (h : 0xffff < cp) (hle : cp ≤ codePointMax) :
    units cp = [cp / 1024 + 0xd7c0, cp % 1024 + 0xdc00] := by
  unfold codePointMax at hle
  have hlead : leadOffset = 0xd7c0 := rfl
  have htrail : trailSurrogateMin = 0xdc00 := rfl
  rw [units, if_pos h, Nat.shiftRight_eq_div_pow, show (0x3ff : ℕ) = 2 ^ 10 - 1 from rfl,
    Nat.and_two_pow_sub_one_eq_mod, hlead, htrail, Nat.mod_eq_of_lt (by omega),
    Nat.mod_eq_of_lt (by omega)]

theorem mask16_of_lt (h : n < 2 ^ 16) : mask16 n = n := by
  rw [mask16, Nat.and_comm]
  exact Nat.and_two_pow_sub_one_of_lt_two_pow h

theorem append_of_valid (h : isCodePointValid cp) (r : Output UInt8) :
    r.append cp = r.after (octets cp) := by
  rw [Output.append, append, if_pos h]

/-- A pair of surrogates as a code point. -/
theorem surrogates_eq {lead trail : ℕ} (hlead : isLeadSurrogate lead)
    (htrail : isTrailSurrogate trail) :
    ((lead <<< 10) + trail + surrogateOffset) % 2 ^ 32 =
      (lead - 0xd800) * 1024 + (trail - 0xdc00) + 0x10000 := by
  obtain ⟨hlead1, hlead2⟩ := hlead
  obtain ⟨htrail1, htrail2⟩ := htrail
  unfold leadSurrogateMin at hlead1
  unfold leadSurrogateMax at hlead2
  unfold trailSurrogateMin at htrail1
  unfold trailSurrogateMax at htrail2
  have hoffset : surrogateOffset = 0x10000 + (2 ^ 32 - 0x3600000 - 0xdc00) := rfl
  omega

/-- A unit that is no surrogate. -/
theorem utf16to8_cons {unit : ℕ} (hlead : ¬isLeadSurrogate (mask16 unit))
    (htrail : ¬isTrailSurrogate (mask16 unit)) (rest : List ℕ) :
    utf16to8 (unit :: rest) = (utf16to8 rest).append (mask16 unit) := by
  rw [utf16to8.eq_def]
  simp only [if_neg hlead, if_neg htrail]

/-- A pair of surrogates. -/
theorem utf16to8_cons_cons {unit unit' : ℕ} (hlead : isLeadSurrogate (mask16 unit))
    (htrail : isTrailSurrogate (mask16 unit')) (rest : List ℕ) :
    utf16to8 (unit :: unit' :: rest) = (utf16to8 rest).append
      ((mask16 unit - 0xd800) * 1024 + (mask16 unit' - 0xdc00) + 0x10000) := by
  rw [utf16to8, if_pos hlead, if_pos htrail, surrogates_eq hlead htrail]

/-- The units of a code point are taken back. -/
theorem utf16to8_units_append (h : isCodePointValid cp) (rest : List ℕ) :
    utf16to8 (units cp ++ rest) = (utf16to8 rest).after (octets cp) := by
  obtain ⟨hmax, hsurrogate⟩ := h
  rcases Nat.lt_or_ge 0xffff cp with hlt | hle
  · have hcp : cp ≤ 0x10ffff := hmax
    have hlead : isLeadSurrogate (cp / 1024 + 0xd7c0) := by
      unfold isLeadSurrogate leadSurrogateMin leadSurrogateMax
      omega
    have htrail : isTrailSurrogate (cp % 1024 + 0xdc00) := by
      unfold isTrailSurrogate trailSurrogateMin trailSurrogateMax
      omega
    have heq : (cp / 1024 + 0xd7c0 - 0xd800) * 1024 + (cp % 1024 + 0xdc00 - 0xdc00) + 0x10000 =
        cp := by
      omega
    have hmask1 := mask16_of_lt (show cp / 1024 + 0xd7c0 < 2 ^ 16 by omega)
    have hmask2 := mask16_of_lt (show cp % 1024 + 0xdc00 < 2 ^ 16 by omega)
    rw [← hmask1] at hlead
    rw [← hmask2] at htrail
    rw [units_of_lt hlt hmax, cons_append, cons_append, nil_append,
      utf16to8_cons_cons hlead htrail, hmask1, hmask2, heq]
    exact append_of_valid ⟨hmax, hsurrogate⟩ _
  · have hmask := mask16_of_lt (show cp < 2 ^ 16 by omega)
    have hsplit : ¬isLeadSurrogate (mask16 cp) ∧ ¬isTrailSurrogate (mask16 cp) := by
      unfold isSurrogate leadSurrogateMin trailSurrogateMax at hsurrogate
      unfold isLeadSurrogate isTrailSurrogate leadSurrogateMin leadSurrogateMax trailSurrogateMin
        trailSurrogateMax
      omega
    rw [units_of_le hle, cons_append, nil_append, utf16to8_cons hsplit.1 hsplit.2, hmask]
    exact append_of_valid ⟨hmax, hsurrogate⟩ _

/-- `utf16to8` goes back. -/
theorem utf16to8_units (h : ∀ cp ∈ cps, isCodePointValid cp) :
    utf16to8 (cps.flatMap units) = (cps.flatMap octets, none) := by
  induction cps with
  | nil => rfl
  | cons cp cps ih =>
    obtain ⟨hcp, hcps⟩ := forall_mem_cons.1 h
    rw [flatMap_cons, utf16to8_units_append hcp, ih hcps]
    rfl

theorem append_eq_none {r : Output UInt8} (h : (r.append cp).2 = none) :
    isCodePointValid cp ∧ r.2 = none := by
  unfold Output.append append at h
  split_ifs at h with hcp
  exact ⟨hcp, h⟩

/-- What is converted without failure are the units of code points. -/
theorem eq_units_of_utf16to8 {x : List ℕ} (hx : ∀ u ∈ x, u < 2 ^ 16) (h : (utf16to8 x).2 = none) :
    ∃ cps : List ℕ, (∀ cp ∈ cps, isCodePointValid cp) ∧ x = cps.flatMap units := by
  fun_induction utf16to8 x with
  | case1 => exact ⟨[], fun _ h => absurd h not_mem_nil, rfl⟩
  | case2 unit | case4 unit cp hlead unit' start trail htrail | case5 unit start cp hlead htrail =>
    cases h
  | case3 unit cp hlead unit' start trail htrail ih =>
    obtain ⟨hvalid, hrest⟩ := append_eq_none h
    obtain ⟨hunit, hx⟩ := forall_mem_cons.1 hx
    obtain ⟨hunit', hx⟩ := forall_mem_cons.1 hx
    obtain ⟨cps, hcps, rfl⟩ := ih hx hrest
    rw [surrogates_eq hlead htrail] at hvalid
    have hcp : cp = unit := mask16_of_lt hunit
    have htrail' : trail = unit' := mask16_of_lt hunit'
    obtain ⟨hlead1, hlead2⟩ := hlead
    obtain ⟨htrail1, htrail2⟩ := htrail
    unfold leadSurrogateMin at hlead1
    unfold trailSurrogateMin at htrail1
    unfold trailSurrogateMax at htrail2
    refine ⟨_, forall_mem_cons.2 ⟨hvalid, hcps⟩, ?_⟩
    rw [flatMap_cons, units_of_lt (by omega) hvalid.1, cons_append, cons_append,
      nil_append, List.cons.injEq, List.cons.injEq]
    exact ⟨by omega, by omega, rfl⟩
  | case6 unit start cp hlead htrail ih =>
    obtain ⟨hvalid, hrest⟩ := append_eq_none h
    obtain ⟨hunit, hx⟩ := forall_mem_cons.1 hx
    obtain ⟨cps, hcps, rfl⟩ := ih hx hrest
    have hcp : cp = unit := mask16_of_lt hunit
    rw [hcp] at hvalid
    refine ⟨unit :: cps, forall_mem_cons.2 ⟨hvalid, hcps⟩, ?_⟩
    rw [flatMap_cons, units_of_le (by omega), cons_append, nil_append]

theorem length_octets_le (cp : ℕ) : (octets cp).length ≤ 4 := by
  unfold octets
  split_ifs <;> simp only [length_cons, length_nil] <;> omega

theorem length_append_le (cp : ℕ) (r : Output UInt8) : (r.append cp).1.length ≤ 4 + r.1.length := by
  unfold Output.append append
  have := length_octets_le cp
  split_ifs
  · simp only [Output.after, length_append]
    omega
  · exact Nat.zero_le _

/-- A unit has four octets at most. -/
theorem length_utf16to8_le (x : List ℕ) : (utf16to8 x).1.length ≤ x.length * 4 := by
  fun_induction utf16to8 x with
  | case1 => exact Nat.le.refl
  | case2 unit | case4 unit cp hlead unit' start trail htrail | case5 unit start cp hlead htrail =>
    exact Nat.zero_le _
  | case3 unit cp hlead unit' start trail htrail ih | case6 unit start cp hlead htrail ih =>
    refine Nat.le_trans (length_append_le _ _) ?_
    simp only [length_cons]
    omega

end Utf8
