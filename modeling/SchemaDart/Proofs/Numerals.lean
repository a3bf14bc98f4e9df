import Mathlib.Data.List.TakeWhile
import SchemaDart.Number.Binary64
import SchemaDart.Number.Integer

/-!
# Numerals

Which texts are numbers, said by what they look like and not by how they are read.  A 64-bit integer is an optional
sign in front of digits whose value is in range (`Integer.Denotes`); reading gives that value and nothing else is read
(`Integer.read_eq_ok_iff`).  A floating-point number is an optional sign in front of a word for infinity or NaN, or of
a decimal with point and exponent (`Binary64.IsNumeral`), and exactly these texts are read (`Binary64.read_isOk_iff`).
-/

namespace SchemaDart

/-! ## Signs and digits -/

namespace Sign

/-- How a sign may be written; a plus need not be. -/
inductive Written : Sign → List Char → Prop
  | absent : Written .plus []
  | plus : Written .plus ['+']
  | minus : Written .minus ['-']

/-- The number with this sign and this absolute value. -/
def signed : Sign → Nat → Int
  | .plus, k => k
  | .minus, k => -k

theorem signed_zero (sign : Sign) : sign.signed 0 = 0 := by
  cases sign <;> rfl

theorem split_written (cs : List Char) :
    ∃ (sign : Sign) (mark body : List Char), split cs = (sign, body) ∧ sign.Written mark ∧ cs = mark ++ body := by
  unfold split
  split
  · exact ⟨_, ['+'], _, rfl, .plus, rfl⟩
  · exact ⟨_, ['-'], _, rfl, .minus, rfl⟩
  · exact ⟨_, [], _, rfl, .absent, rfl⟩

/-- A sign is split off if no second one follows. -/
theorem split_append {sign : Sign} {mark body : List Char} (hmark : sign.Written mark)
    (hbody : ∀ c ∈ body.head?, c ≠ '+' ∧ c ≠ '-') : split (mark ++ body) = (sign, body) := by
  cases hmark with
  | absent =>
    cases body with
    | nil => rfl
    | cons c cs =>
      obtain ⟨hplus, hminus⟩ := hbody c rfl
      simp [split, hplus, hminus]
  | plus => rfl
  | minus => rfl

end Sign

/-- The characters are ASCII digits. -/
def AllDigits (cs : List Char) : Prop := ∀ c ∈ cs, c.isDigit

theorem digit?_of_isDigit {c : Char} (hc : c.isDigit) : digit? c = some (c.toNat - '0'.toNat) := if_pos hc

theorem digit?_of_not_isDigit {c : Char} (hc : ¬ c.isDigit) : digit? c = none := if_neg hc

theorem ne_sign_of_isDigit {c : Char} (hc : c.isDigit) : c ≠ '+' ∧ c ≠ '-' := by
  constructor
  · rintro rfl
    exact absurd hc (by decide)
  · rintro rfl
    exact absurd hc (by decide)

theorem AllDigits.head_ne_sign {ds : List Char} (hds : AllDigits ds) : ∀ c ∈ ds.head?, c ≠ '+' ∧ c ≠ '-' :=
  fun c hc => ne_sign_of_isDigit (hds c (List.mem_of_mem_head? hc))

theorem AllDigits.takeWhile_append {ds rest : List Char} (hds : AllDigits ds) (hrest : ∀ c ∈ rest.head?, ¬ c.isDigit) :
    (ds ++ rest).takeWhile Char.isDigit = ds ∧ (ds ++ rest).dropWhile Char.isDigit = rest := by
  rw [List.takeWhile_append_of_pos hds, List.dropWhile_append_of_pos hds]
  cases rest with
  | nil => simp
  | cons c rest => simp [hrest c rfl]

theorem head?_dropWhile_isDigit (cs : List Char) : ∀ c ∈ (cs.dropWhile Char.isDigit).head?, ¬ c.isDigit := by
  intro c hc
  have hhead := List.head?_dropWhile_not Char.isDigit cs
  rw [hc] at hhead
  simpa using hhead

theorem allDigits_takeWhile (cs : List Char) : AllDigits (cs.takeWhile Char.isDigit) :=
  fun _ hc => List.mem_takeWhile_imp hc

/-- A number grows with every digit behind it. -/
theorem le_ofDigitChars (cs : List Char) (k : Nat) : k ≤ Nat.ofDigitChars 10 cs k := by
  induction cs generalizing k with
  | nil => exact le_rfl
  | cons c cs ih =>
    rw [Nat.ofDigitChars_cons]
    exact le_trans (by omega) (ih _)

/-! ## Integers -/

namespace Integer

/-- The integers of 64 bits: from minus two to the 63rd up to two to the 63rd, the latter left out. -/
def InRange (n : Int) : Prop := -0x8000000000000000 ≤ n ∧ n < 0x8000000000000000

instance (n : Int) : Decidable (InRange n) := inferInstanceAs (Decidable (_ ∧ _))

/-- The text is an optional sign in front of one or more digits, and `n` is the number it denotes. -/
def Denotes (text : String) (n : Int) : Prop :=
  ∃ (sign : Sign) (mark digits : List Char), sign.Written mark ∧ digits ≠ [] ∧ AllDigits digits ∧
    text.toList = mark ++ digits ∧ n = sign.signed (Nat.ofDigitChars 10 digits 0)

theorem push_signed (sign : Sign) (k d : Nat) : push sign (sign.signed k) d = sign.signed (10 * k + d) := by
  cases sign <;> simp only [push, Sign.signed] <;> omega

theorem inRange_iff (n : Int) : least ≤ n ∧ n ≤ greatest ↔ InRange n := by
  unfold least greatest InRange
  omega

theorem inRange_zero (sign : Sign) : InRange (sign.signed 0) := by
  rw [sign.signed_zero]
  decide

/-- Away from zero a number that has left the range does not come back. -/
theorem InRange.of_le {sign : Sign} {j k : Nat} (hjk : j ≤ k) (hk : InRange (sign.signed k)) :
    InRange (sign.signed j) := by
  unfold InRange at *
  cases sign <;> simp only [Sign.signed] at * <;> omega

/-- Digits are read up to the first character that is none, and the value of all of them decides about the range. -/
theorem readDigits_eq (sign : Sign) {k : Nat} (hk : InRange (sign.signed k)) (cs : List Char) :
    readDigits sign (sign.signed k) cs =
      if InRange (sign.signed (Nat.ofDigitChars 10 (cs.takeWhile Char.isDigit) k)) then
        if cs.dropWhile Char.isDigit = [] then
          .ok (sign.signed (Nat.ofDigitChars 10 (cs.takeWhile Char.isDigit) k))
        else .error .invalidDigit
      else .error (overflow sign) := by
  induction cs generalizing k with
  | nil => exact (if_pos hk).symm
  | cons c cs ih =>
    by_cases hc : c.isDigit
    · rw [List.takeWhile_cons_of_pos hc, List.dropWhile_cons_of_pos hc, Nat.ofDigitChars_cons, readDigits]
      simp only [digit?_of_isDigit hc, push_signed, inRange_iff]
      by_cases hnext : InRange (sign.signed (10 * k + (c.toNat - '0'.toNat)))
      · rw [if_pos hnext, ih hnext]
      · -- the digits that follow are not read, and could not lead back into the range
        have hall := mt (InRange.of_le (le_ofDigitChars (cs.takeWhile Char.isDigit) _)) hnext
        rw [if_neg hnext, if_neg hall]
    · rw [List.takeWhile_cons_of_neg hc, List.dropWhile_cons_of_neg hc, readDigits]
      simp only [digit?_of_not_isDigit hc]
      rw [Nat.ofDigitChars_nil, if_pos hk, if_neg (List.cons_ne_nil c cs)]

theorem read_eq {text : String} {sign : Sign} {body : List Char} (hsplit : Sign.split text.toList = (sign, body)) :
    read text =
      if body = [] then .error (if text = "" then .empty else .invalidDigit)
      else (readDigits sign (sign.signed 0) body).map Int64.ofInt := by
  rw [sign.signed_zero]
  unfold read
  split
  · next htext =>
    rw [htext] at hsplit
    cases hsplit
    rw [if_pos rfl, if_pos (String.toList_eq_nil_iff.mp htext)]
  · next htext =>
    have hne : text ≠ "" := fun h => htext (String.toList_eq_nil_iff.mpr h)
    rw [hsplit]
    cases body with
    | nil => rw [if_pos rfl, if_neg hne]
    | cons c body => rfl

theorem InRange.toInt_ofInt {n : Int} (hn : InRange n) : (Int64.ofInt n).toInt = n :=
  Int64.toInt_ofInt_of_le hn.1 hn.2

theorem inRange_toInt (n : Int64) : InRange n.toInt := ⟨Int64.le_toInt n, Int64.toInt_lt n⟩

/-- **Exactly the numerals in range are read, as their value.** -/
theorem read_eq_ok_iff {text : String} {n : Int64} : read text = .ok n ↔ Denotes text n.toInt := by
  constructor
  · intro h
    obtain ⟨sign, mark, body, hsplit, hmark, htext⟩ := Sign.split_written text.toList
    rw [read_eq hsplit, readDigits_eq sign (inRange_zero sign)] at h
    split_ifs at h with hbody hrange hend <;> cases h
    have hdigits : AllDigits body := List.dropWhile_eq_nil_iff.mp hend
    rw [List.takeWhile_eq_self_iff.mpr hdigits] at hrange ⊢
    exact ⟨sign, mark, body, hmark, hbody, hdigits, htext, hrange.toInt_ofInt⟩
  · rintro ⟨sign, mark, digits, hmark, hne, hdigits, htext, hn⟩
    have hsplit : Sign.split text.toList = (sign, digits) := by
      rw [htext, Sign.split_append hmark hdigits.head_ne_sign]
    have hrange : InRange (sign.signed (Nat.ofDigitChars 10 digits 0)) := by
      rw [← hn]
      exact inRange_toInt n
    rw [read_eq hsplit, if_neg hne, readDigits_eq sign (inRange_zero sign), List.takeWhile_eq_self_iff.mpr hdigits,
      if_pos hrange, if_pos (List.dropWhile_eq_nil_iff.mpr hdigits), ← hn]
    exact congrArg Except.ok (Int64.ofInt_toInt n)

theorem read_isOk_iff {text : String} : (∃ n, read text = .ok n) ↔ ∃ n, Denotes text n ∧ InRange n := by
  constructor
  · rintro ⟨n, hn⟩
    exact ⟨n.toInt, read_eq_ok_iff.mp hn, inRange_toInt n⟩
  · rintro ⟨n, hn, hrange⟩
    refine ⟨Int64.ofInt n, read_eq_ok_iff.mpr ?_⟩
    rwa [hrange.toInt_ofInt]

/-- The decimal text of a number denotes it. -/
theorem denotes_repr (n : Int) : Denotes n.repr n := by
  have hdigits : ∀ k : Nat, AllDigits (Nat.toDigits 10 k) := fun k c hc =>
    Nat.isDigit_of_mem_toDigits (by decide) (by decide) hc
  cases n with
  | ofNat k =>
    refine ⟨.plus, [], Nat.toDigits 10 k, .absent, Nat.toDigits_ne_nil, hdigits k, Nat.toList_repr, ?_⟩
    rw [Nat.ofDigitChars_ten_toDigits]
    rfl
  | negSucc k =>
    refine ⟨.minus, ['-'], Nat.toDigits 10 (k + 1), .minus, Nat.toDigits_ne_nil, hdigits (k + 1), ?_, ?_⟩
    · show ("-" ++ Nat.repr (k + 1)).toList = _
      rw [String.toList_append, Nat.toList_repr]
      rfl
    · rw [Nat.ofDigitChars_ten_toDigits]
      rfl

end Integer

/-! ## Floating-point numbers -/

namespace Binary64

/-- A word for infinity or NaN, in any case. -/
def IsWord (cs : List Char) : Prop :=
  cs.map Char.toLower ∈ ["inf".toList, "infinity".toList, "nan".toList]

/-- An optional exponent: a letter, an optional sign, and one or more digits. -/
inductive IsExponent : List Char → Prop
  | absent : IsExponent []
  | present {letter : Char} {sign : Sign} {mark digits : List Char} (hletter : letter = 'e' ∨ letter = 'E')
      (hmark : sign.Written mark) (hne : digits ≠ []) (hdigits : AllDigits digits) :
      IsExponent (letter :: (mark ++ digits))

/-- Digits with an optional point and an optional exponent.  There is a digit on at least one side of the point. -/
inductive IsDecimal : List Char → Prop
  | whole {whole exponent : List Char} (hne : whole ≠ []) (hwhole : AllDigits whole) (hexponent : IsExponent exponent) :
      IsDecimal (whole ++ exponent)
  | pointed {whole fraction exponent : List Char} (hne : whole ≠ [] ∨ fraction ≠ []) (hwhole : AllDigits whole)
      (hfraction : AllDigits fraction) (hexponent : IsExponent exponent) :
      IsDecimal (whole ++ '.' :: (fraction ++ exponent))

/-- The text is an optional sign in front of a word or a decimal. -/
def IsNumeral (text : String) : Prop :=
  ∃ (sign : Sign) (mark body : List Char), sign.Written mark ∧ (IsWord body ∨ IsDecimal body) ∧
    text.toList = mark ++ body

theorem isSome_exponent?_iff {cs : List Char} : (exponent? cs).isSome ↔ IsExponent cs := by
  constructor
  · intro h
    cases cs with
    | nil => exact .absent
    | cons c cs =>
      obtain ⟨sign, mark, body, hsplit, hmark, hcs⟩ := Sign.split_written cs
      rw [exponent?, hsplit] at h
      split_ifs at h with hletter
      · cases body with
        | nil => cases h
        | cons d body =>
          simp only at h
          split_ifs at h with hall
          · rw [hcs]
            exact .present hletter hmark (List.cons_ne_nil d body) (List.all_eq_true.mp hall)
          · cases h
      · cases h
  · intro h
    cases h with
    | absent => rfl
    | @present letter sign mark digits hletter hmark hne hdigits =>
      rw [exponent?, if_pos hletter, Sign.split_append hmark hdigits.head_ne_sign]
      cases digits with
      | nil => exact absurd rfl hne
      | cons d digits =>
        simp only
        rw [if_pos (List.all_eq_true.mpr hdigits)]
        cases sign <;> rfl

/-- An exponent goes on neither with a digit nor with a point. -/
theorem IsExponent.head {cs : List Char} (h : IsExponent cs) : ∀ c ∈ cs.head?, ¬ c.isDigit ∧ c ≠ '.' := by
  intro c hc
  cases h with
  | absent => cases hc
  | present hletter =>
    cases hc
    rcases hletter with rfl | rfl <;> decide

theorem isSome_unsignedDecimal?_whole {whole rest : List Char} (hwhole : AllDigits whole)
    (hrest : ∀ c ∈ rest.head?, ¬ c.isDigit ∧ c ≠ '.') :
    (unsignedDecimal? (whole ++ rest)).isSome ↔ whole ≠ [] ∧ (exponent? rest).isSome := by
  obtain ⟨htake, hdrop⟩ := hwhole.takeWhile_append fun c hc => (hrest c hc).1
  unfold unsignedDecimal?
  simp only [htake, hdrop]
  split
  · next tail => exact absurd rfl (hrest '.' rfl).2
  · cases whole <;> simp

theorem isSome_unsignedDecimal?_pointed {whole fraction rest : List Char} (hwhole : AllDigits whole)
    (hfraction : AllDigits fraction) (hrest : ∀ c ∈ rest.head?, ¬ c.isDigit) :
    (unsignedDecimal? (whole ++ '.' :: (fraction ++ rest))).isSome ↔
      (whole ≠ [] ∨ fraction ≠ []) ∧ (exponent? rest).isSome := by
  have hpoint : ∀ c ∈ ('.' :: (fraction ++ rest)).head?, ¬ c.isDigit := by
    intro c hc
    cases hc
    decide
  obtain ⟨htake, hdrop⟩ := hwhole.takeWhile_append hpoint
  obtain ⟨htake', hdrop'⟩ := hfraction.takeWhile_append hrest
  unfold unsignedDecimal?
  simp only [htake, hdrop, htake', hdrop']
  cases whole <;> cases fraction <;> simp

theorem isSome_unsignedDecimal?_iff {cs : List Char} : (unsignedDecimal? cs).isSome ↔ IsDecimal cs := by
  constructor
  · intro h
    have hcs : cs.takeWhile Char.isDigit ++ cs.dropWhile Char.isDigit = cs := List.takeWhile_append_dropWhile
    have hrest := head?_dropWhile_isDigit cs
    generalize cs.dropWhile Char.isDigit = rest at hcs hrest
    by_cases hpoint : ∃ tail, rest = '.' :: tail
    · obtain ⟨tail, rfl⟩ := hpoint
      have htail : tail.takeWhile Char.isDigit ++ tail.dropWhile Char.isDigit = tail := List.takeWhile_append_dropWhile
      rw [← hcs, ← htail] at h ⊢
      rw [isSome_unsignedDecimal?_pointed (allDigits_takeWhile cs) (allDigits_takeWhile tail)
        (head?_dropWhile_isDigit tail)] at h
      exact .pointed h.1 (allDigits_takeWhile cs) (allDigits_takeWhile tail) (isSome_exponent?_iff.mp h.2)
    · have hrest' : ∀ c ∈ rest.head?, ¬ c.isDigit ∧ c ≠ '.' := by
        intro c hc
        refine ⟨hrest c hc, ?_⟩
        rintro rfl
        exact hpoint (List.head?_eq_some_iff.mp hc)
      rw [← hcs] at h ⊢
      rw [isSome_unsignedDecimal?_whole (allDigits_takeWhile cs) hrest'] at h
      exact .whole h.1 (allDigits_takeWhile cs) (isSome_exponent?_iff.mp h.2)
  · intro h
    cases h with
    | whole hne hwhole hexponent =>
      rw [isSome_unsignedDecimal?_whole hwhole hexponent.head]
      exact ⟨hne, isSome_exponent?_iff.mpr hexponent⟩
    | pointed hne hwhole hfraction hexponent =>
      rw [isSome_unsignedDecimal?_pointed hwhole hfraction fun c hc => (hexponent.head c hc).1]
      exact ⟨hne, isSome_exponent?_iff.mpr hexponent⟩

theorem isSome_unsigned?_iff {cs : List Char} : (unsigned? cs).isSome ↔ IsWord cs ∨ IsDecimal cs := by
  unfold unsigned? IsWord
  simp only [List.mem_cons, List.not_mem_nil, or_false]
  split_ifs with hinf hnan
  · exact iff_of_true rfl (.inl (hinf.imp_right .inl))
  · exact iff_of_true rfl (.inl (.inr (.inr hnan)))
  · have hword : ¬ (cs.map Char.toLower = "inf".toList ∨ cs.map Char.toLower = "infinity".toList ∨
        cs.map Char.toLower = "nan".toList) := by
      rw [← or_assoc]
      exact not_or.mpr ⟨hinf, hnan⟩
    rw [isSome_unsignedDecimal?_iff, or_iff_right hword]

/-- No second sign stands behind the first. -/
theorem head_ne_sign {cs : List Char} (h : IsWord cs ∨ IsDecimal cs) : ∀ c ∈ cs.head?, c ≠ '+' ∧ c ≠ '-' := by
  intro c hc
  obtain ⟨tail, rfl⟩ := List.head?_eq_some_iff.mp hc
  rcases h with hword | hdecimal
  · have hlower : c.toLower = 'i' ∨ c.toLower = 'n' := by
      simp only [IsWord, List.map_cons, List.mem_cons, List.not_mem_nil, or_false] at hword
      rcases hword with h | h | h
      · exact .inl (List.cons.inj h).1
      · exact .inl (List.cons.inj h).1
      · exact .inr (List.cons.inj h).1
    constructor
    · rintro rfl
      exact absurd hlower (by decide)
    · rintro rfl
      exact absurd hlower (by decide)
  · generalize hcs : c :: tail = cs at hdecimal
    cases hdecimal with
    | @whole whole _ hne hwhole _ =>
      cases whole with
      | nil => exact absurd rfl hne
      | cons d whole =>
        obtain ⟨rfl, -⟩ := List.cons.inj hcs
        exact ne_sign_of_isDigit (hwhole c List.mem_cons_self)
    | @pointed whole _ _ _ hwhole _ _ =>
      cases whole with
      | nil =>
        obtain ⟨rfl, -⟩ := List.cons.inj hcs
        decide
      | cons d whole =>
        obtain ⟨rfl, -⟩ := List.cons.inj hcs
        exact ne_sign_of_isDigit (hwhole c List.mem_cons_self)

theorem read_eq {text : String} {sign : Sign} {body : List Char} (hsplit : Sign.split text.toList = (sign, body)) :
    read text = (unsigned? body).elim (.error (if text = "" then .empty else .malformed))
      fun bits => .ok (withSign sign bits) := by
  unfold read
  split
  · next htext =>
    rw [htext] at hsplit
    cases hsplit
    rw [if_pos (String.toList_eq_nil_iff.mp htext)]
    rfl
  · next htext =>
    have hne : text ≠ "" := fun h => htext (String.toList_eq_nil_iff.mpr h)
    rw [hsplit, if_neg hne]
    dsimp only
    cases unsigned? body <;> rfl

/-- **Exactly the numerals are read.** -/
theorem read_isOk_iff {text : String} : (∃ x, read text = .ok x) ↔ IsNumeral text := by
  constructor
  · rintro ⟨x, hx⟩
    obtain ⟨sign, mark, body, hsplit, hmark, htext⟩ := Sign.split_written text.toList
    rw [read_eq hsplit] at hx
    cases hbody : unsigned? body with
    | none =>
      rw [hbody] at hx
      cases hx
    | some bits =>
      have hsome : (unsigned? body).isSome := by rw [hbody]; rfl
      exact ⟨sign, mark, body, hmark, isSome_unsigned?_iff.mp hsome, htext⟩
  · rintro ⟨sign, mark, body, hmark, hbody, htext⟩
    have hsplit : Sign.split text.toList = (sign, body) := by
      rw [htext, Sign.split_append hmark (head_ne_sign hbody)]
    obtain ⟨bits, hbits⟩ := Option.isSome_iff_exists.mp (isSome_unsigned?_iff.mpr hbody)
    rw [read_eq hsplit, hbits]
    exact ⟨_, rfl⟩

end Binary64
end SchemaDart
