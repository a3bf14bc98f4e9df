import Mathlib.Algebra.Group.Nat.Defs
import SchemaDart.Literal.Value
import SchemaDart.Proofs.Numerals

/-!
# Integer literals

What becomes of an integer literal is settled by its sign and by the digits at the front of what follows the sign
(`decode_int_cases`): first by whether their value is in range, and only then by whether anything else follows them.

Reading goes through the digits one by one.  The numbers on the way grow away from zero, so one that is out of range is
noticed at once (`overflow_noticed`) and is no accident of the digits read so far.  The whole can therefore be done in
64-bit words, if each multiplication and each addition is watched (`readWords_eq`).
-/

namespace SchemaDart

/-- The characters are an optional sign in front of `body`.  What looks like a sign at the front is the sign. -/
inductive Sign.Heads : Sign → List Char → List Char → Prop
  | absent {body : List Char} (h : ∀ c ∈ body.head?, c ≠ '+' ∧ c ≠ '-') : Heads .plus body body
  | plus (body : List Char) : Heads .plus ('+' :: body) body
  | minus (body : List Char) : Heads .minus ('-' :: body) body

theorem Sign.heads_iff {sign : Sign} {cs body : List Char} : sign.Heads cs body ↔ split cs = (sign, body) := by
  constructor
  · intro h
    cases h with
    | absent h => exact @split_append .plus [] _ .absent h
    | plus => rfl
    | minus => rfl
  · intro h
    unfold split at h
    split at h
    · cases h
      exact .plus _
    · cases h
      exact .minus _
    · next hplus hminus =>
      cases h
      refine .absent fun c hc => ?_
      obtain ⟨tail, rfl⟩ := List.head?_eq_some_iff.mp hc
      constructor
      · rintro rfl
        exact hplus tail rfl
      · rintro rfl
        exact hminus tail rfl

namespace Integer

/-! ## In range or not -/

/-- No 64-bit integer has this sign and this absolute value. -/
def Exceeds : Sign → Nat → Prop
  | .plus, size => 2 ^ 63 ≤ size
  | .minus, size => 2 ^ 63 < size

instance : (sign : Sign) → (size : Nat) → Decidable (Exceeds sign size)
  | .plus, size => inferInstanceAs (Decidable (2 ^ 63 ≤ size))
  | .minus, size => inferInstanceAs (Decidable (2 ^ 63 < size))

theorem inRange_signed_iff (sign : Sign) (size : Nat) : InRange (sign.signed size) ↔ ¬ Exceeds sign size := by
  cases sign <;> simp only [InRange, Sign.signed, Exceeds] <;> omega

theorem exceeds_iff (sign : Sign) (size : Nat) :
    Exceeds sign size ↔ (sign = .plus ∧ 2 ^ 63 ≤ size) ∨ (sign = .minus ∧ 2 ^ 63 < size) := by
  cases sign <;> simp [Exceeds]

/-- The value of the digits at the front. -/
def leading (cs : List Char) : Nat := Nat.ofDigitChars 10 (cs.takeWhile Char.isDigit) 0

/-- The digits at the front decide first, and then whether they are all there is. -/
theorem readDigits_zero (sign : Sign) (cs : List Char) :
    readDigits sign 0 cs =
      if Exceeds sign (leading cs) then .error (overflow sign)
      else if cs.takeWhile Char.isDigit = cs then .ok (sign.signed (leading cs))
      else .error .invalidDigit := by
  have hend : cs.dropWhile Char.isDigit = [] ↔ cs.takeWhile Char.isDigit = cs := by
    rw [List.dropWhile_eq_nil_iff, List.takeWhile_eq_self_iff]
  rw [← sign.signed_zero, readDigits_eq sign (inRange_zero sign)]
  simp only [inRange_signed_iff, hend, ite_not]
  rfl

/-! ## The numbers on the way -/

/-- Reading can be interrupted anywhere. -/
theorem readDigits_append (sign : Sign) (n : Int) (front back : List Char) :
    readDigits sign n (front ++ back) = (readDigits sign n front).bind fun m => readDigits sign m back := by
  induction front generalizing n with
  | nil => rfl
  | cons c front ih =>
    simp only [List.cons_append, readDigits]
    cases digit? c with
    | none => rfl
    | some d =>
      by_cases hnext : least ≤ push sign n d ∧ push sign n d ≤ greatest
      · simp only [if_pos hnext, ih]
      · simp only [if_neg hnext]
        rfl

/-- What has been read is in range, on the side of the sign. -/
theorem readDigits_ok {sign : Sign} {cs : List Char} {n : Int} (h : readDigits sign 0 cs = .ok n) :
    ∃ k, n = sign.signed k ∧ InRange n := by
  rw [readDigits_zero] at h
  split_ifs at h with hsize hall
  cases h
  exact ⟨_, rfl, (inRange_signed_iff sign _).mpr hsize⟩

/-- A product out of range stays so when the digit is added. -/
theorem inRange_product {sign : Sign} {k d : Nat} (h : InRange (push sign (sign.signed k) d)) :
    InRange (10 * sign.signed k) := by
  rw [push_signed] at h
  have hproduct : 10 * sign.signed k = sign.signed (10 * k) := by
    cases sign <;> simp only [Sign.signed] <;> omega
  rw [hproduct]
  exact h.of_le (Nat.le_add_right _ _)

/-- A product or a sum out of range ends the reading. -/
theorem overflow_noticed {sign : Sign} {front back : List Char} {c : Char} {d : Nat} {n : Int}
    (hn : readDigits sign 0 front = .ok n) (hd : digit? c = some d)
    (hout : ¬ InRange (10 * n) ∨ ¬ InRange (push sign n d)) :
    readDigits sign 0 (front ++ c :: back) = .error (overflow sign) := by
  obtain ⟨k, rfl, -⟩ := readDigits_ok hn
  -- it is the sum that is looked at, and a product out of range shows there
  have hpush : ¬ InRange (push sign (sign.signed k) d) := by
    rcases hout with hproduct | hpush
    · exact mt inRange_product hproduct
    · exact hpush
  rw [readDigits_append, hn]
  show readDigits sign (sign.signed k) (c :: back) = _
  rw [readDigits]
  simp only [hd, inRange_iff]
  exact if_neg hpush

/-! ## Reading in words -/

/-- The word that an operation leaves, unless it differs from the exact result. -/
def watched (exact : Int) (word : Int64) : Option Int64 := if word.toInt = exact then some word else none

/-- One digit more, in words: a multiplication and then an addition or subtraction, both watched. -/
def pushWord? (sign : Sign) (n : Int64) (d : Nat) : Option Int64 := do
  let product ← watched (10 * n.toInt) (10 * n)
  match sign with
  | .plus => watched (product.toInt + d) (product + Int64.ofNat d)
  | .minus => watched (product.toInt - d) (product - Int64.ofNat d)

/-- Reads digits behind the word `n`. -/
def readWords (sign : Sign) (n : Int64) : List Char → Except IntegerFault Int64
  | [] => .ok n
  | c :: cs =>
    match digit? c with
    | none => .error .invalidDigit
    | some d =>
      match pushWord? sign n d with
      | none => .error (overflow sign)
      | some next => readWords sign next cs

theorem watched_ofInt (exact : Int) :
    watched exact (Int64.ofInt exact) = if InRange exact then some (Int64.ofInt exact) else none := by
  unfold watched
  by_cases h : InRange exact
  · rw [if_pos h.toInt_ofInt, if_pos h]
  · have hne : (Int64.ofInt exact).toInt ≠ exact := by
      intro heq
      rw [← heq] at h
      exact h (inRange_toInt _)
    rw [if_neg hne, if_neg h]

/-- The two operations together notice exactly that the digit leads out of range. -/
theorem pushWord?_eq {sign : Sign} {n : Int64} {k : Nat} (hn : n.toInt = sign.signed k) (d : Nat) :
    pushWord? sign n d =
      if InRange (push sign n.toInt d) then some (Int64.ofInt (push sign n.toInt d)) else none := by
  have hproduct : 10 * n = Int64.ofInt (10 * n.toInt) := by
    rw [Int64.ofInt_mul, Int64.ofInt_toInt]
    rfl
  unfold pushWord?
  rw [hproduct, watched_ofInt]
  by_cases h10 : InRange (10 * n.toInt)
  · rw [if_pos h10, Option.bind_eq_bind, Option.bind_some, h10.toInt_ofInt, ← Int64.ofInt_eq_ofNat]
    cases sign with
    | plus =>
      rw [← Int64.ofInt_add]
      exact watched_ofInt _
    | minus =>
      rw [← Int64.ofInt_sub]
      exact watched_ofInt _
  · have hpush : ¬ InRange (push sign n.toInt d) := by
      rw [hn] at h10 ⊢
      exact mt inRange_product h10
    rw [if_neg h10, if_neg hpush]
    rfl

/-- **Reading in words is exact.** -/
theorem readWords_eq {sign : Sign} {n : Int64} {k : Nat} (hn : n.toInt = sign.signed k) (cs : List Char) :
    readWords sign n cs = (readDigits sign n.toInt cs).map Int64.ofInt := by
  induction cs generalizing n k with
  | nil => exact congrArg Except.ok (Int64.ofInt_toInt n).symm
  | cons c cs ih =>
    rw [readWords, readDigits]
    cases digit? c with
    | none => rfl
    | some d =>
      simp only [pushWord?_eq hn, inRange_iff]
      by_cases hnext : InRange (push sign n.toInt d)
      · -- the next word is again on the side of the sign, as the induction needs it
        have hside : (Int64.ofInt (push sign n.toInt d)).toInt = sign.signed (10 * k + d) := by
          rw [hnext.toInt_ofInt, hn, push_signed]
        simp only [if_pos hnext]
        rw [ih hside, hnext.toInt_ofInt]
      · simp only [if_neg hnext]
        rfl

end Integer

/-! ## The outcome -/

namespace Literal

open Integer

/-- What becomes of an integer literal with this sign and body, told by the digits at the front of the body. -/
structure Judged (text : String) (sign : Sign) (body : List Char) (outcome : Except Fault Value) : Prop where
  empty : outcome = .error (.invalidInt .empty) ↔ text = ""
  tooLarge : outcome = .error (.invalidInt .tooLarge) ↔ sign = .plus ∧ 2 ^ 63 ≤ leading body
  tooSmall : outcome = .error (.invalidInt .tooSmall) ↔ sign = .minus ∧ 2 ^ 63 < leading body
  /-- If the digits are in range, they have to be there and to be followed by nothing. -/
  invalidDigit : outcome = .error (.invalidInt .invalidDigit) ↔
    text ≠ "" ∧ ¬ Exceeds sign (leading body) ∧ (body = [] ∨ body.takeWhile Char.isDigit ≠ body)
  value : (∃ n : Int64, outcome = .ok (.int n) ∧ n.toInt = sign.signed (Nat.ofDigitChars 10 body 0)) ↔
    ¬ Exceeds sign (leading body) ∧ body ≠ [] ∧ body.takeWhile Char.isDigit = body

theorem decode_int_cases {text : String} {sign : Sign} {body : List Char} (h : sign.Heads text.toList body) :
    (text = "" ∧ ¬ Exceeds sign (leading body) ∧ body = [] ∧ decode (.int text) = .error (.invalidInt .empty)) ∨
    (text ≠ "" ∧ Exceeds sign (leading body) ∧ decode (.int text) = .error (.invalidInt (overflow sign))) ∨
    (text ≠ "" ∧ ¬ Exceeds sign (leading body) ∧ (body = [] ∨ body.takeWhile Char.isDigit ≠ body) ∧
      decode (.int text) = .error (.invalidInt .invalidDigit)) ∨
    (text ≠ "" ∧ ¬ Exceeds sign (leading body) ∧ body ≠ [] ∧ body.takeWhile Char.isDigit = body ∧
      ∃ n : Int64, decode (.int text) = .ok (.int n) ∧ n.toInt = sign.signed (leading body)) := by
  have hread := read_eq (Sign.heads_iff.mp h)
  rw [sign.signed_zero, readDigits_zero] at hread
  by_cases hbody : body = []
  · -- no digits, so none that are out of range
    subst hbody
    have hsize : ¬ Exceeds sign 0 := (inRange_signed_iff sign 0).mp (inRange_zero sign)
    rw [if_pos rfl] at hread
    by_cases htext : text = ""
    · rw [if_pos htext] at hread
      exact .inl ⟨htext, hsize, rfl, by rw [decode, hread]⟩
    · rw [if_neg htext] at hread
      exact .inr (.inr (.inl ⟨htext, hsize, .inl rfl, by rw [decode, hread]⟩))
  · have htext : text ≠ "" := by
      rintro rfl
      cases Sign.heads_iff.mp h
      exact hbody rfl
    rw [if_neg hbody] at hread
    split_ifs at hread with hsize hall
    · exact .inr (.inl ⟨htext, hsize, by rw [decode, hread]; rfl⟩)
    · have hrange : InRange (sign.signed (leading body)) := (inRange_signed_iff sign _).mpr hsize
      exact .inr (.inr (.inr ⟨htext, hsize, hbody, hall, _, by rw [decode, hread]; rfl, hrange.toInt_ofInt⟩))
    · exact .inr (.inr (.inl ⟨htext, hsize, .inr hall, by rw [decode, hread]; rfl⟩))

theorem judged_decode {text : String} {sign : Sign} {body : List Char} (h : sign.Heads text.toList body) :
    Judged text sign body (decode (.int text)) := by
  have hsides : ¬ Exceeds sign (leading body) →
      ¬ (sign = .plus ∧ 2 ^ 63 ≤ leading body) ∧ ¬ (sign = .minus ∧ 2 ^ 63 < leading body) := by
    rw [exceeds_iff, not_or]
    exact id
  rcases decode_int_cases h with ⟨htext, hsize, hbody, hout⟩ | ⟨htext, hsize, hout⟩ | ⟨htext, hsize, hbad, hout⟩ |
    ⟨htext, hsize, hbody, hall, n, hout, hn⟩
  · rw [hout]
    exact ⟨iff_of_true rfl htext, iff_of_false nofun (hsides hsize).1, iff_of_false nofun (hsides hsize).2,
      iff_of_false nofun fun h => h.1 htext, iff_of_false (by simp) fun h => h.2.1 hbody⟩
  · rw [hout]
    cases sign with
    | plus => exact ⟨iff_of_false nofun htext, iff_of_true rfl ⟨rfl, hsize⟩, iff_of_false nofun (by simp),
        iff_of_false nofun fun h => h.2.1 hsize, iff_of_false (by simp) fun h => h.1 hsize⟩
    | minus => exact ⟨iff_of_false nofun htext, iff_of_false nofun (by simp), iff_of_true rfl ⟨rfl, hsize⟩,
        iff_of_false nofun fun h => h.2.1 hsize, iff_of_false (by simp) fun h => h.1 hsize⟩
  · rw [hout]
    refine ⟨iff_of_false nofun htext, iff_of_false nofun (hsides hsize).1, iff_of_false nofun (hsides hsize).2,
      iff_of_true rfl ⟨htext, hsize, hbad⟩, iff_of_false (by simp) ?_⟩
    rintro ⟨-, hbody, hall⟩
    exact hbad.elim hbody fun hne => hne hall
  · rw [hout]
    refine ⟨iff_of_false nofun htext, iff_of_false nofun (hsides hsize).1, iff_of_false nofun (hsides hsize).2,
      iff_of_false nofun ?_, iff_of_true ⟨n, rfl, ?_⟩ ⟨hsize, hbody, hall⟩⟩
    · rintro ⟨-, -, hbad⟩
      exact hbad.elim hbody fun hne => hne hall
    · rw [hn, leading, hall]

/-- **Integer literals decode to their exact value, or to the right fault.**  Every text is an optional sign and a
body, in one way, and these decide what becomes of it.  On the way, no product and no sum is out of range without being
the reason why the text is refused, so that the digits may as well be read in watched words. -/
theorem int_decoded_exactly (text : String) :
    ∃ (sign : Sign) (body : List Char),
      (∀ sign' body', sign'.Heads text.toList body' ↔ sign' = sign ∧ body' = body) ∧
      Judged text sign body (decode (.int text)) ∧
      (∀ front c back d n, body = front ++ c :: back → digit? c = some d → readDigits sign 0 front = .ok n →
        InRange n ∧ (¬ InRange (10 * n) ∨ ¬ InRange (push sign n d) →
          decode (.int text) = .error (.invalidInt (overflow sign)))) ∧
      (body ≠ [] → Integer.read text = readWords sign 0 body) := by
  obtain ⟨sign, body, hsplit⟩ : ∃ sign body, Sign.split text.toList = (sign, body) := ⟨_, _, rfl⟩
  have hheads : sign.Heads text.toList body := Sign.heads_iff.mpr hsplit
  refine ⟨sign, body, ?_, judged_decode hheads, ?_, ?_⟩
  · intro sign' body'
    rw [Sign.heads_iff, hsplit, Prod.mk.injEq, eq_comm, @eq_comm _ body]
  · intro front c back d n hbody hd hn
    obtain ⟨k, -, hrange⟩ := readDigits_ok hn
    refine ⟨hrange, fun hout => ?_⟩
    have hne : body ≠ [] := by simp [hbody]
    have hread : Integer.read text = .error (overflow sign) := by
      rw [read_eq hsplit, if_neg hne, sign.signed_zero, hbody, overflow_noticed hn hd hout]
      rfl
    rw [decode, hread]
  · intro hne
    have hzero : (0 : Int64).toInt = sign.signed 0 := by rw [sign.signed_zero]; rfl
    rw [read_eq hsplit, if_neg hne, readWords_eq hzero, hzero]

/-- Leading zeros do not count, and the least integer has no counterpart above zero. -/
example : decode (.int "-0009223372036854775808") = .ok (.int (-0x8000000000000000)) ∧
    decode (.int "+9223372036854775808") = .error (.invalidInt .tooLarge) := ⟨rfl, rfl⟩

end Literal
end SchemaDart
