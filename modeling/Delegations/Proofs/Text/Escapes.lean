import Delegations.Proofs.Text.Percent

/-!
Which texts have all their escapes resolved, and to which bytes. Main statements: resolving the bytes
of a text gives what the text stands for (`resolves_of_unescape`), and fails if some percent sign has
no escape behind it (`unescape_of_broken`). The escapes that are accepted are two hexadecimal digits
and, besides, a plus sign in place of the first one.
-/
namespace Delegations.Text

theorem ofNat_toNat_inj {c d : Char} (ascii : c.toNat < 128) (ascii' : d.toNat < 128) :
    UInt8.ofNat c.toNat = UInt8.ofNat d.toNat ↔ c = d := by
  rw [← UInt8.toNat_inj, ← Char.toNat_inj, UInt8.toNat_ofNat', UInt8.toNat_ofNat']
  omega

theorem le_of_mem_utf8EncodeChar {c : Char} (wide : 128 ≤ c.toNat) {byte : UInt8}
    (mem : byte ∈ String.utf8EncodeChar c) : 128 ≤ byte.toNat := by
  change 128 ≤ c.val.toNat at wide
  unfold String.utf8EncodeChar at mem
  dsimp only at mem
  split at mem
  · omega
  · split_ifs at mem <;> simp only [List.mem_cons, List.not_mem_nil, or_false] at mem
    · rcases mem with rfl | rfl <;> simp <;> omega
    · rcases mem with rfl | rfl | rfl <;> simp <;> omega
    · rcases mem with rfl | rfl | rfl | rfl <;> simp <;> omega

theorem utf8_eq_cons_of_ascii {text : List Char} {byte : UInt8} {bytes : List UInt8}
    (encodes : utf8 text = byte :: bytes) (ascii : byte.toNat < 128) :
    ∃ c rest, text = c :: rest ∧ c.toNat < 128 ∧ UInt8.ofNat c.toNat = byte ∧ utf8 rest = bytes := by
  cases text with
  | nil => cases encodes
  | cons c rest =>
    by_cases single : c.toNat < 128
    · rw [utf8_cons_of_ascii single] at encodes
      cases encodes
      exact ⟨c, rest, rfl, single, rfl, rfl⟩
    · have nonempty : String.utf8EncodeChar c ≠ [] := by
        intro none
        have length := String.length_utf8EncodeChar c
        rw [none] at length
        exact absurd c.utf8Size_pos (by simp [← length])
      obtain ⟨first, others, parts⟩ := List.exists_cons_of_ne_nil nonempty
      have wide : 128 ≤ first.toNat :=
        le_of_mem_utf8EncodeChar (Nat.le_of_not_lt single) (by simp [parts])
      rw [utf8_cons, parts] at encodes
      cases encodes
      omega

namespace Hex

theorem lt_of_digit? {byte : UInt8} {n : Nat} (digit : digit? byte = some n) :
    byte.toNat < 128 := by
  unfold digit? at digit
  simp only [Bool.and_eq_true, decide_eq_true_eq] at digit
  split_ifs at digit <;> omega

instance (n : Nat) (c : Char) : Decidable (Shows n c) := instDecidableAnd

theorem digit?_eq_some_iff {n : Nat} {c : Char} (ascii : c.toNat < 128) :
    digit? (UInt8.ofNat c.toNat) = some n ↔ Shows n c := by
  have all : ∀ k < 128, ∀ n ∈ digit? (UInt8.ofNat k), Shows n (Char.ofNat k) := by
    decide
  constructor
  · intro digit
    have shows := all c.toNat ascii n digit
    rwa [Char.ofNat_toNat] at shows
  · intro shows
    exact shows.reads.2.2

end Hex

namespace Percent

def Pair (c d : Char) (byte : UInt8) : Prop :=
  ∃ m n, Hex.Shows m c ∧ Hex.Shows n d ∧ byte = UInt8.ofNat (16 * m + n)

/-- The byte that two characters behind a percent sign stand for, if they are accepted there. -/
def Accepted (c d : Char) (byte : UInt8) : Prop :=
  Pair c d byte ∨ c = '+' ∧ ∃ n, Hex.Shows n d ∧ byte = UInt8.ofNat n

section
variable (escape : Char → Char → UInt8 → Prop)

/-- The text stands for the bytes, each escape for one and all else for its encoding. -/
inductive Resolves : List Char → List UInt8 → Prop
  | nil : Resolves [] []
  | plain {c : Char} {text : List Char} {bytes : List UInt8} :
      c ≠ '%' → Resolves text bytes → Resolves (c :: text) (String.utf8EncodeChar c ++ bytes)
  | escaped {c d : Char} {byte : UInt8} {text : List Char} {bytes : List UInt8} :
      escape c d byte → Resolves text bytes → Resolves ('%' :: c :: d :: text) (byte :: bytes)

/-- What stands behind a percent sign does not begin with an escape. -/
def Unescaped (after : List Char) : Prop :=
  ∀ c d byte rest, escape c d byte → after ≠ c :: d :: rest

/-- Some percent sign has no escape behind it. -/
def Broken (text : List Char) : Prop := ∃ after, '%' :: after <:+ text ∧ Unescaped escape after

end

def Unsigned (text : List Char) : Prop := ¬(['%', '+'] <:+: text)

instance : DecidablePred Unsigned := fun _ => instDecidableNot

variable {escape : Char → Char → UInt8 → Prop} {c d : Char} {byte : UInt8} {bytes : List UInt8}
  {text after : List Char}

theorem escaped?_of_accepted (accepted : Accepted c d byte) :
    escaped? (UInt8.ofNat c.toNat) (UInt8.ofNat d.toNat) = some byte := by
  rcases accepted with ⟨m, n, high, low, rfl⟩ | ⟨rfl, n, low, rfl⟩
  · rw [escaped?, high.reads.2.2, low.reads.2.2]
  · have noDigit : Hex.digit? (UInt8.ofNat '+'.toNat) = none := by decide
    rw [escaped?, noDigit, low.reads.2.2]
    exact if_pos (by decide)

theorem accepted_of_escaped? (ascii : c.toNat < 128) (ascii' : d.toNat < 128)
    (resolved : escaped? (UInt8.ofNat c.toNat) (UInt8.ofNat d.toNat) = some byte) :
    Accepted c d byte := by
  unfold escaped? at resolved
  split at resolved
  · rename_i m n high low
    cases resolved
    rw [Hex.digit?_eq_some_iff ascii] at high
    rw [Hex.digit?_eq_some_iff ascii'] at low
    exact .inl ⟨m, n, high, low, rfl⟩
  · rename_i n _ low
    rw [Hex.digit?_eq_some_iff ascii'] at low
    split at resolved
    · rename_i plus
      cases resolved
      exact .inr ⟨(ofNat_toNat_inj ascii (by decide)).mp plus, n, low, rfl⟩
    · cases resolved
  · cases resolved

theorem lt_of_escaped? {high low : UInt8} (resolved : escaped? high low = some byte) :
    high.toNat < 128 ∧ low.toNat < 128 := by
  unfold escaped? at resolved
  split at resolved
  · rename_i m n first second
    exact ⟨Hex.lt_of_digit? first, Hex.lt_of_digit? second⟩
  · rename_i n _ second
    split at resolved
    · rename_i plus
      rw [plus]
      exact ⟨by decide, Hex.lt_of_digit? second⟩
    · cases resolved
  · cases resolved

theorem unescapeFrom_append {front : List UInt8} (plain : ∀ byte ∈ front, byte ≠ 0x25)
    (done rest : List UInt8) :
    unescapeFrom done (front ++ rest) = unescapeFrom (front.reverse ++ done) rest := by
  induction front generalizing done with
  | nil => rfl
  | cons byte front ih =>
    obtain ⟨first, others⟩ := List.forall_mem_cons.mp plain
    rw [List.cons_append, unescapeFrom_of_ne first, ih others]
    simp

theorem ne_of_mem_utf8EncodeChar (plain : c ≠ '%') (mem : byte ∈ String.utf8EncodeChar c) :
    byte ≠ 0x25 := by
  rintro rfl
  by_cases single : c.toNat < 128
  · rw [utf8EncodeChar_of_ascii single, List.mem_singleton] at mem
    exact plain ((ofNat_toNat_inj single (by decide)).mp mem.symm)
  · have := le_of_mem_utf8EncodeChar (Nat.le_of_not_lt single) mem
    exact absurd this (by decide)

theorem unescapeFrom_plain (plain : c ≠ '%') (done : List UInt8) (text : List Char) :
    unescapeFrom done (utf8 (c :: text)) =
      unescapeFrom ((String.utf8EncodeChar c).reverse ++ done) (utf8 text) := by
  rw [utf8_cons, unescapeFrom_append]
  intro byte mem
  exact ne_of_mem_utf8EncodeChar plain mem

theorem Accepted.ascii (accepted : Accepted c d byte) : c.toNat < 128 ∧ d.toNat < 128 := by
  rcases accepted with ⟨m, n, high, low, _⟩ | ⟨rfl, n, low, _⟩
  · exact ⟨high.reads.1, low.reads.1⟩
  · exact ⟨by decide, low.reads.1⟩

theorem unescapeFrom_accepted (accepted : Accepted c d byte) (done : List UInt8)
    (text : List Char) :
    unescapeFrom done (utf8 ('%' :: c :: d :: text)) = unescapeFrom (byte :: done) (utf8 text) := by
  obtain ⟨first, second⟩ := accepted.ascii
  rw [utf8_cons_of_ascii (by decide), utf8_cons_of_ascii first, utf8_cons_of_ascii second,
    unescapeFrom, if_pos (by decide)]
  simp only [escaped?_of_accepted accepted]

theorem unescapeFrom_unescaped (unescaped : Unescaped Accepted after) (done : List UInt8) :
    unescapeFrom done (utf8 ('%' :: after)) = none := by
  rw [utf8_cons_of_ascii (by decide), unescapeFrom.eq_def]
  simp only [if_pos (show UInt8.ofNat '%'.toNat = 0x25 by decide)]
  split
  · rename_i high low rest encodes
    split
    · rename_i value resolved
      obtain ⟨first, second⟩ := lt_of_escaped? resolved
      obtain ⟨c, _, rfl, ascii, rfl, behind⟩ := utf8_eq_cons_of_ascii encodes first
      obtain ⟨d, later, rfl, ascii', rfl, _⟩ := utf8_eq_cons_of_ascii behind second
      exact absurd rfl (unescaped c d value later (accepted_of_escaped? ascii ascii' resolved))
    · rfl
  · rfl

theorem unescapeFrom_of_resolves (resolves : Resolves Accepted text bytes) (done : List UInt8) :
    unescapeFrom done (utf8 text) = some (done.reverse ++ bytes) := by
  induction resolves generalizing done with
  | nil => simp [unescapeFrom]
  | plain other _ ih =>
    rw [unescapeFrom_plain other, ih]
    simp
  | escaped accepted _ ih =>
    rw [unescapeFrom_accepted accepted, ih]
    simp

theorem resolves_or_unescapeFrom (text : List Char) :
    (∃ bytes, Resolves Accepted text bytes) ∨ ∀ done, unescapeFrom done (utf8 text) = none := by
  match text with
  | [] => exact .inl ⟨[], .nil⟩
  | c :: rest =>
    by_cases plain : c ≠ '%'
    · refine (resolves_or_unescapeFrom rest).imp ?_ ?_
      · rintro ⟨bytes, resolves⟩
        exact ⟨_, .plain plain resolves⟩
      · intro stops done
        rw [unescapeFrom_plain plain, stops]
    · obtain rfl := not_not.mp plain
      by_cases unescaped : Unescaped Accepted rest
      · exact .inr (unescapeFrom_unescaped unescaped)
      · simp only [Unescaped, not_forall, not_not] at unescaped
        obtain ⟨c, d, byte, later, accepted, rfl⟩ := unescaped
        refine (resolves_or_unescapeFrom later).imp ?_ ?_
        · rintro ⟨bytes, resolves⟩
          exact ⟨_, .escaped accepted resolves⟩
        · intro stops done
          rw [unescapeFrom_accepted accepted, stops]
termination_by text.length

theorem resolves_of_unescape (resolved : unescape (utf8 text) = some bytes) :
    Resolves Accepted text bytes := by
  rcases resolves_or_unescapeFrom text with ⟨bytes', resolves⟩ | stops
  · have same := unescapeFrom_of_resolves resolves []
    cases resolved.symm.trans same
    exact resolves
  · cases resolved.symm.trans (stops [])

theorem not_shows_percent (n : Nat) : ¬Hex.Shows n '%' := by
  intro shows
  have noDigit : Hex.digit? (UInt8.ofNat '%'.toNat) = none := by decide
  cases noDigit.symm.trans shows.reads.2.2

theorem Accepted.ne_percent (accepted : Accepted c d byte) : c ≠ '%' ∧ d ≠ '%' := by
  rcases accepted with ⟨m, n, high, low, _⟩ | ⟨rfl, n, low, _⟩
  · constructor
    · rintro rfl
      exact not_shows_percent m high
    · rintro rfl
      exact not_shows_percent n low
  · refine ⟨by decide, ?_⟩
    rintro rfl
    exact not_shows_percent n low

/-- A percent sign is never part of an escape that another one begins. -/
theorem not_broken_of_resolves (resolves : Resolves Accepted text bytes) :
    ¬Broken Accepted text := by
  rintro ⟨after, suffix, unescaped⟩
  induction resolves with
  | nil => simp at suffix
  | plain other _ ih =>
    rcases List.suffix_cons_iff.mp suffix with same | suffix
    · exact other (List.cons.inj same).1.symm
    · exact ih suffix
  | escaped accepted _ ih =>
    rcases List.suffix_cons_iff.mp suffix with same | suffix
    · exact unescaped _ _ _ _ accepted (List.cons.inj same).2
    rcases List.suffix_cons_iff.mp suffix with same | suffix
    · exact accepted.ne_percent.1 (List.cons.inj same).1.symm
    rcases List.suffix_cons_iff.mp suffix with same | suffix
    · exact accepted.ne_percent.2 (List.cons.inj same).1.symm
    · exact ih suffix

theorem unescape_of_broken (broken : Broken Accepted text) : unescape (utf8 text) = none := by
  rcases resolves_or_unescapeFrom text with ⟨bytes, resolves⟩ | stops
  · exact absurd broken (not_broken_of_resolves resolves)
  · exact stops []

theorem Unsigned.of_cons (unsigned : Unsigned (c :: text)) : Unsigned text :=
  mt (List.infix_cons ·) unsigned

theorem Unsigned.not_suffix (unsigned : Unsigned text) : ¬('%' :: '+' :: after <:+ text) := by
  intro suffix
  have front : ['%', '+'] <+: '%' :: '+' :: after := ⟨after, rfl⟩
  exact unsigned (front.isInfix.trans suffix.isInfix)

theorem Unsigned.resolves (unsigned : Unsigned text) (resolves : Resolves Accepted text bytes) :
    Resolves Pair text bytes := by
  induction resolves with
  | nil => exact .nil
  | plain other _ ih => exact .plain other (ih unsigned.of_cons)
  | escaped accepted _ ih =>
    rcases accepted with pair | ⟨rfl, _⟩
    · exact .escaped pair (ih unsigned.of_cons.of_cons.of_cons)
    · exact absurd (List.suffix_refl _) unsigned.not_suffix

theorem Unsigned.broken (unsigned : Unsigned text) (broken : Broken Pair text) :
    Broken Accepted text := by
  obtain ⟨after, suffix, unescaped⟩ := broken
  refine ⟨after, suffix, ?_⟩
  rintro c d byte rest (pair | ⟨rfl, _⟩) rfl
  · exact unescaped c d byte rest pair rfl
  · exact unsigned.not_suffix suffix

end Percent

end Delegations.Text
