/-
Numbers, their words and their text. A number has the signed or unsigned word that stands for its
value, and no other (`Number.toSigned?_eq_some_iff`, `Number.toUnsigned?_eq_some_iff`).

A literal stands for the number in normal form that has its value (`Number.ofLiteral?_eq_some_iff`),
if it is in range. Every number is written as a literal that reads back to its value
(`Number.ofLiteral?_text`), whichever word holds it.

Read as signed words, numbers keep their order as long as the signed range ends between none of them
(`Number.truncate_lt_iff`).
-/
import ExprShell.Number

namespace ExprShell.Number

/-! ## Ranges -/

/-- Signed words are their integers. -/
theorem toInt_ofInt {n : Int} (hmin : minSigned ≤ n) (hmax : n ≤ maxSigned) :
    (Int64.ofInt n).toInt = n := by
  unfold minSigned at hmin
  unfold maxSigned at hmax
  exact Int64.toInt_ofInt_of_le (by simpa using hmin) (by omega)

/-- The normal form of an unsigned word has its value. -/
theorem value_normal (n : UInt64) : (normal n).value = n.toNat := by
  unfold normal signed?
  split
  · next m h =>
    split at h
    · next hrange =>
      cases h
      exact toInt_ofInt hrange.1 hrange.2
    · cases h
  · rfl

theorem minSigned_le_value (n : Number) : minSigned ≤ n.value := by
  unfold minSigned
  cases n with
  | int n => exact Int64.le_toInt n
  | uint n =>
    change _ ≤ (n.toNat : Int)
    omega

theorem value_le_maxUnsigned (n : Number) : n.value ≤ maxUnsigned := by
  unfold maxUnsigned
  cases n with
  | int n =>
    have h : n.toInt < 2 ^ 63 := Int64.toInt_lt n
    change n.toInt ≤ _
    omega
  | uint n =>
    have h : n.toNat < 2 ^ 64 := UInt64.toNat_lt n
    change (n.toNat : Int) ≤ _
    omega

/-- An unsigned word is used for what the signed one cannot hold only. -/
def isNormal : Number → Bool
  | int _ => true
  | uint n => maxSigned < (n.toNat : Int)

/-- Every integer in range has a number in normal form. -/
theorem ofInt?_eq_some {v : Int} (hmin : minSigned ≤ v) (hmax : v ≤ maxUnsigned) :
    ∃ m, ofInt? v = some m ∧ m.value = v ∧ m.isNormal = true := by
  by_cases hsigned : v ≤ maxSigned
  · refine ⟨int (Int64.ofInt v), ?_, toInt_ofInt hmin hsigned, rfl⟩
    rw [ofInt?, signed?, if_pos ⟨hmin, hsigned⟩]
  · have hpos : 0 ≤ v := by
      unfold maxSigned at hsigned
      omega
    have hword : ((UInt64.ofNat v.toNat).toNat : Int) = v := by
      unfold maxUnsigned at hmax
      rw [UInt64.toNat_ofNat', Nat.mod_eq_of_lt (by omega), Int.toNat_of_nonneg hpos]
    refine ⟨uint (UInt64.ofNat v.toNat), ?_, hword, ?_⟩
    · rw [ofInt?, signed?, if_neg fun h => hsigned h.2, unsigned?, if_pos ⟨hpos, hmax⟩]
      rfl
    · rw [isNormal, hword, decide_eq_true_eq]
      omega

/-- An integer has the signed word that stands for it. -/
theorem signed?_eq_some_iff {v : Int} {w : Int64} : signed? v = some w ↔ w.toInt = v := by
  unfold signed?
  constructor
  · intro h
    split at h
    · next hrange =>
      cases h
      exact toInt_ofInt hrange.1 hrange.2
    · cases h
  · rintro rfl
    have hmin := minSigned_le_value (int w)
    have hmax : w.toInt < 2 ^ 63 := Int64.toInt_lt w
    rw [if_pos ⟨hmin, by unfold maxSigned; omega⟩, Int64.ofInt_toInt]

theorem unsigned?_eq_some_iff {v : Int} {w : UInt64} :
    unsigned? v = some w ↔ (w.toNat : Int) = v := by
  unfold unsigned?
  constructor
  · intro h
    split at h
    · next hrange =>
      cases h
      unfold maxUnsigned at hrange
      rw [UInt64.toNat_ofNat', Nat.mod_eq_of_lt (by omega), Int.toNat_of_nonneg hrange.1]
    · cases h
  · rintro rfl
    rw [if_pos ⟨Int.natCast_nonneg _, value_le_maxUnsigned (uint w)⟩]
    simp

theorem toSigned?_eq_some_iff {n : Number} {w : Int64} :
    n.toSigned? = some w ↔ w.toInt = n.value := by
  cases n with
  | int m =>
    change some m = some w ↔ w.toInt = m.toInt
    rw [Option.some_inj, Int64.toInt_inj, eq_comm]
  | uint m => exact signed?_eq_some_iff

theorem toUnsigned?_eq_some_iff {n : Number} {w : UInt64} :
    n.toUnsigned? = some w ↔ (w.toNat : Int) = n.value := by
  cases n with
  | int m => exact unsigned?_eq_some_iff
  | uint m =>
    change some m = some w ↔ (w.toNat : Int) = m.toNat
    rw [Option.some_inj, Int.natCast_inj, UInt64.toNat_inj, eq_comm]

/-- The normal form of an unsigned word is normal. -/
theorem isNormal_normal (n : UInt64) : (normal n).isNormal = true := by
  unfold normal
  split
  · rfl
  · next h =>
    rw [isNormal, decide_eq_true_eq]
    have hnone : ¬ (minSigned ≤ (n.toNat : Int) ∧ (n.toNat : Int) ≤ maxSigned) := by
      intro hrange
      rw [signed?, if_pos hrange] at h
      cases h
    unfold minSigned at hnone
    omega

/-! ## Digits -/

theorem ofDigits_toDigits (n : Nat) : ofDigits (Nat.toDigits 10 n) = n :=
  Nat.ofDigitChars_toDigits (by decide) (by decide)

theorem isDigit_toDigits {n : Nat} {c : Char} (h : c ∈ Nat.toDigits 10 n) : c.isDigit = true :=
  Nat.isDigit_of_mem_toDigits (by decide) (by decide) h

/-- The text of a number is one of digits, with a minus sign before them or not. -/
theorem text_cases (n : Number) :
    (∃ k : Nat, n.value = k ∧ n.text.toList = Nat.toDigits 10 k) ∨
      (∃ k : Nat, n.value = -k ∧ n.text.toList = '-' :: Nat.toDigits 10 k) := by
  unfold text
  cases n.value with
  | ofNat k =>
    refine .inl ⟨k, rfl, ?_⟩
    change (Nat.repr k).toList = _
    rw [Nat.repr, String.toList_ofList]
  | negSucc k =>
    refine .inr ⟨k + 1, rfl, ?_⟩
    change ("-" ++ Nat.repr (k + 1)).toList = _
    simp [Nat.repr]

/-- Digits start with a digit. -/
theorem toDigits_eq_cons (n : Nat) :
    ∃ c rest, Nat.toDigits 10 n = c :: rest ∧ c.isDigit = true ∧ c ≠ '-' := by
  cases h : Nat.toDigits 10 n with
  | nil => exact absurd h Nat.toDigits_ne_nil
  | cons c rest =>
    have hc : c.isDigit = true := isDigit_toDigits (by rw [h]; exact List.mem_cons_self)
    refine ⟨c, rest, rfl, hc, ?_⟩
    rintro rfl
    exact absurd hc (by decide)

/-- Only the digits of zero start with a zero. -/
theorem toDigits_eq_zero_cons {n : Nat} {rest : List Char} (h : Nat.toDigits 10 n = '0' :: rest) :
    n = 0 ∧ rest = [] := by
  induction n using Nat.strongRecOn generalizing rest with
  | _ n ih =>
    by_cases hn : n < 10
    · rw [Nat.toDigits_of_lt_base hn] at h
      have hdigits : ∀ n < 10, Nat.digitChar n = '0' → n = 0 := by decide
      obtain ⟨hhead, rfl⟩ := List.cons.inj h
      exact ⟨hdigits n hn hhead, rfl⟩
    · rw [Nat.toDigits_of_base_le (by decide) (by omega)] at h
      cases hquotient : Nat.toDigits 10 (n / 10) with
      | nil => exact absurd hquotient Nat.toDigits_ne_nil
      | cons c digits =>
        rw [hquotient] at h
        obtain ⟨rfl, -⟩ := List.cons.inj h
        have := (ih (n / 10) (by omega) hquotient).1
        omega

/-! ## Literals -/

theorem all_isDigit_toDigits (n : Nat) : (Nat.toDigits 10 n).all Char.isDigit = true :=
  List.all_eq_true.2 fun _ h => isDigit_toDigits h

theorem isLiteral_text (n : Number) : isLiteral n.text = true := by
  unfold isLiteral
  obtain ⟨k, -, htext⟩ | ⟨k, -, htext⟩ := text_cases n
  · obtain ⟨c, rest, hdigits, -, hsign⟩ := toDigits_eq_cons k
    have hall := all_isDigit_toDigits k
    rw [htext]
    rw [hdigits] at hall ⊢
    simp [hsign, hall]
  · obtain ⟨c, rest, hdigits, -, -⟩ := toDigits_eq_cons k
    have hall := all_isDigit_toDigits k
    rw [htext]
    rw [hdigits] at hall ⊢
    simpa using hall

/-- The integer that a literal spells: its digits, with a minus sign before them or not. -/
def literalValue (text : String) : Int :=
  match text.toList with
  | '-' :: digits => -(Nat.ofDigitChars 10 digits 0 : Int)
  | digits => Nat.ofDigitChars 10 digits 0

theorem literalValue_of_digits {text : String} (h : ∀ digits, text.toList ≠ '-' :: digits) :
    literalValue text = Nat.ofDigitChars 10 text.toList 0 := by
  unfold literalValue
  split
  · next digits htext => exact absurd htext (h digits)
  · rfl

theorem ofLiteral?_of_digits {text : String} (h : ∀ digits, text.toList ≠ '-' :: digits) :
    ofLiteral? text = (unsigned? (ofDigits text.toList)).map normal := by
  unfold ofLiteral?
  split
  · next digits htext => exact absurd htext (h digits)
  · rfl

/-- Numbers in normal form that have one value are the same word. -/
theorem eq_of_value_eq {m n : Number} (hm : m.isNormal = true) (hn : n.isNormal = true)
    (h : m.value = n.value) : m = n := by
  cases m with
  | int v =>
    cases n with
    | int w => exact congrArg int (Int64.toInt_inj.1 h)
    | uint w =>
      have hw : maxSigned < (w.toNat : Int) := by simpa [isNormal] using hn
      have hv : v.toInt < 2 ^ 63 := Int64.toInt_lt v
      change v.toInt = w.toNat at h
      unfold maxSigned at hw
      omega
  | uint v =>
    have hv : maxSigned < (v.toNat : Int) := by simpa [isNormal] using hm
    cases n with
    | int w =>
      have hw : w.toInt < 2 ^ 63 := Int64.toInt_lt w
      change (v.toNat : Int) = w.toInt at h
      unfold maxSigned at hv
      omega
    | uint w => exact congrArg uint (UInt64.toNat_inj.1 (Int.natCast_inj.1 h))

/-- The signed word of an integer that is not too large, as a number. -/
theorem map_signed?_eq_some_iff {v : Int} (hv : v ≤ maxSigned) {n : Number} :
    (signed? v).map int = some n ↔ n.value = v ∧ n.isNormal = true := by
  rw [Option.map_eq_some_iff]
  constructor
  · rintro ⟨w, hw, rfl⟩
    exact ⟨signed?_eq_some_iff.1 hw, rfl⟩
  · rintro ⟨rfl, hnormal⟩
    have hword := toInt_ofInt (minSigned_le_value n) hv
    exact ⟨_, signed?_eq_some_iff.2 hword, eq_of_value_eq rfl hnormal hword⟩

/-- The unsigned word of an integer that is not negative, as a number. -/
theorem map_unsigned?_eq_some_iff {v : Int} (hv : 0 ≤ v) {n : Number} :
    (unsigned? v).map normal = some n ↔ n.value = v ∧ n.isNormal = true := by
  rw [Option.map_eq_some_iff]
  constructor
  · rintro ⟨w, hw, rfl⟩
    exact ⟨(value_normal w).trans (unsigned?_eq_some_iff.1 hw), isNormal_normal w⟩
  · rintro ⟨rfl, hnormal⟩
    have hmax := value_le_maxUnsigned n
    have hword : ((UInt64.ofNat n.value.toNat).toNat : Int) = n.value := by
      unfold maxUnsigned at hmax
      rw [UInt64.toNat_ofNat', Nat.mod_eq_of_lt (by omega), Int.toNat_of_nonneg hv]
    refine ⟨_, unsigned?_eq_some_iff.2 hword, ?_⟩
    exact eq_of_value_eq (isNormal_normal _) hnormal ((value_normal _).trans hword)

/-- A literal stands for the number in normal form that has its value. -/
theorem ofLiteral?_eq_some_iff {text : String} {n : Number} :
    ofLiteral? text = some n ↔ n.value = literalValue text ∧ n.isNormal = true := by
  by_cases hsign : ∃ digits, text.toList = '-' :: digits
  · obtain ⟨digits, htext⟩ := hsign
    rw [ofLiteral?, literalValue, htext]
    refine map_signed?_eq_some_iff ?_
    unfold maxSigned
    omega
  · have hdigits : ∀ digits, text.toList ≠ '-' :: digits := fun digits h => hsign ⟨digits, h⟩
    rw [ofLiteral?_of_digits hdigits, literalValue_of_digits hdigits]
    exact map_unsigned?_eq_some_iff (Int.natCast_nonneg _)

/-- The literals that stand for a number are those in range. -/
theorem exists_ofLiteral?_iff {text : String} :
    (∃ n, ofLiteral? text = some n) ↔
      minSigned ≤ literalValue text ∧ literalValue text ≤ maxUnsigned := by
  constructor
  · rintro ⟨n, hn⟩
    have hvalue := (ofLiteral?_eq_some_iff.1 hn).1
    exact ⟨hvalue ▸ minSigned_le_value n, hvalue ▸ value_le_maxUnsigned n⟩
  · rintro ⟨hmin, hmax⟩
    obtain ⟨n, -, hn⟩ := ofInt?_eq_some hmin hmax
    exact ⟨n, ofLiteral?_eq_some_iff.2 hn⟩

theorem literalValue_text (n : Number) : literalValue n.text = n.value := by
  obtain ⟨k, hvalue, htext⟩ | ⟨k, hvalue, htext⟩ := text_cases n
  · obtain ⟨c, rest, hdigits, -, hsign⟩ := toDigits_eq_cons k
    have hunsigned : ∀ digits, n.text.toList ≠ '-' :: digits := by
      intro digits heq
      rw [htext, hdigits] at heq
      exact hsign (List.cons.inj heq).1
    rw [literalValue_of_digits hunsigned, htext, hvalue]
    exact congrArg Int.ofNat (ofDigits_toDigits k)
  · rw [literalValue, htext, hvalue]
    exact congrArg (fun d : Nat => -(d : Int)) (ofDigits_toDigits k)

/-- **The text of a number reads back to its value.** -/
theorem ofLiteral?_text (n : Number) :
    ∃ m, ofLiteral? n.text = some m ∧ m.value = n.value := by
  obtain ⟨m, hm⟩ : ∃ m, ofLiteral? n.text = some m := by
    rw [exists_ofLiteral?_iff, literalValue_text]
    exact ⟨minSigned_le_value n, value_le_maxUnsigned n⟩
  exact ⟨m, hm, (ofLiteral?_eq_some_iff.1 hm).1.trans (literalValue_text n)⟩

/-! ## Wrapping around -/

/-- As a signed word a value above the signed range is less by as many as there are words. -/
theorem toInt_truncate (n : Number) :
    n.truncate.toInt = if n.value ≤ maxSigned then n.value else n.value - (maxUnsigned + 1) := by
  unfold maxSigned maxUnsigned
  cases n with
  | int n =>
    have h : n.toInt < 2 ^ 63 := Int64.toInt_lt n
    have hvalue : (int n).value = n.toInt := rfl
    rw [hvalue, if_pos (by omega)]
    rfl
  | uint n =>
    have h : n.toNat < 2 ^ 64 := UInt64.toNat_lt n
    have hvalue : (uint n).value = n.toNat := rfl
    have hword : (uint n).truncate.toInt = n.toBitVec.toInt := rfl
    have hnat : n.toBitVec.toNat = n.toNat := rfl
    rw [hvalue, hword, BitVec.toInt_eq_toNat_cond, hnat]
    split
    · rw [if_pos (by omega)]
    · rw [if_neg (by omega)]
      omega

/-- Wrapping around keeps the order among the values of the signed range, and among those above
it. -/
theorem truncate_lt_iff {m n : Number} (h : m.value ≤ maxSigned ↔ n.value ≤ maxSigned) :
    m.truncate < n.truncate ↔ m.value < n.value := by
  rw [Int64.lt_iff_toInt_lt, toInt_truncate, toInt_truncate]
  by_cases hn : n.value ≤ maxSigned
  · rw [if_pos hn, if_pos (h.2 hn)]
  · rw [if_neg hn, if_neg fun hm => hn (h.1 hm)]
    omega

end ExprShell.Number
