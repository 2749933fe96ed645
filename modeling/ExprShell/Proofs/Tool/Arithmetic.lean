/-
Arithmetic is exact. If a tool of arithmetic gives a number, it is the result on the integers, in
normal form (`Tool.arithmetic_exact`), and there is a number if the results on the way stay in
one of the ranges, but for one remainder (`Tool.arithmetic_in_range`).

Operands are combined as words of one kind or the other. What is needed of a kind of word is that
a step on words is the operation on integers, and that it is there if the result fits
(`WordKind.IsExact`). Then combining words from the left is combining integers
(`WordKind.IsExact.fold_sound`, `WordKind.IsExact.fold_complete`), whichever kind it is.
-/
import ExprShell.Machine.Host
import ExprShell.Proofs.Number
import ExprShell.Tool.Run

namespace ExprShell

namespace Operation

/-! ## Operations on integers -/

/-- What an operation means: a quotient is without its fraction, and a remainder has the sign of
the dividend. -/
def meaning : Operation → Int → Int → Int
  | add, a, b => a + b
  | sub, a, b => a - b
  | mul, a, b => a * b
  | div, a, b => a.sign * b.sign * (a.natAbs / b.natAbs : Nat)
  | rem, a, b => a.sign * (a.natAbs % b.natAbs : Nat)

/-- The result of an operation on several integers, from the left; a single one is negated in a
difference. -/
def total : Operation → List Int → Int
  | mul, [] => 1
  | _, [] => 0
  | sub, [a] => -a
  | op, a :: rest => rest.foldl op.meaning a

/-- The results on the way to it, the last one included. -/
def partials : Operation → List Int → List Int
  | _, [] => []
  | sub, [a] => [-a]
  | op, a :: rest => rest.scanl op.meaning a

/-- Operands and results on the way are signed words, or no operand is negative and the results
are unsigned words. -/
def InRange (op : Operation) (values : List Int) : Prop :=
  ((∀ v ∈ values, Number.minSigned ≤ v ∧ v ≤ Number.maxSigned) ∧
      ∀ r ∈ op.partials values, Number.minSigned ≤ r ∧ r ≤ Number.maxSigned) ∨
    ((∀ v ∈ values, 0 ≤ v) ∧ ∀ r ∈ op.partials values, 0 ≤ r ∧ r ≤ Number.maxUnsigned)

theorem tdiv_eq (a b : Int) : a.tdiv b = a.sign * b.sign * (a.natAbs / b.natAbs : Nat) := by
  have h : (a.tdiv b).sign * ((a.tdiv b).natAbs : Int) = a.tdiv b := Int.sign_mul_natAbs _
  rw [← h, Int.natAbs_tdiv, Int.sign_tdiv]
  split
  · next hlt =>
    rw [Nat.div_eq_of_lt hlt]
    simp
  · rfl

theorem tmod_eq (a b : Int) : a.tmod b = a.sign * (a.natAbs % b.natAbs : Nat) := by
  rw [← Int.natAbs_tmod]
  obtain hneg | rfl | hpos := Int.lt_trichotomy a 0
  · have hr : a.tmod b ≤ 0 := by
      have := Int.tmod_nonneg b (a := -a) (by omega)
      rw [Int.neg_tmod] at this
      omega
    rw [Int.sign_eq_neg_one_of_neg hneg]
    omega
  · simp
  · have hr : 0 ≤ a.tmod b := Int.tmod_nonneg b (by omega)
    rw [Int.sign_eq_one_of_pos hpos]
    omega

theorem exact_eq_meaning (op : Operation) (a b : Int) : op.exact a b = op.meaning a b := by
  cases op with
  | add | sub | mul => rfl
  | div => exact tdiv_eq a b
  | rem => exact tmod_eq a b

/-- A remainder is nearer to zero than the divisor. -/
theorem natAbs_rem_lt (a : Int) {b : Int} (hb : b ≠ 0) : (rem.meaning a b).natAbs < b.natAbs := by
  rw [← exact_eq_meaning]
  change (a.tmod b).natAbs < b.natAbs
  rw [Int.natAbs_tmod]
  exact Nat.mod_lt _ (Int.natAbs_pos.2 hb)

theorem rem_nonneg {a : Int} (ha : 0 ≤ a) (b : Int) : 0 ≤ rem.meaning a b := by
  rw [← exact_eq_meaning]
  exact Int.tmod_nonneg b ha

/-- The remainder of the least signed word by -1, which is zero and counts as out of range. -/
def stumbles : Operation → List Int → Bool
  | rem, a :: b :: _ => a == Number.minSigned && b == -1
  | _, _ => false

theorem stumbles_cons (op : Operation) (a b : Int) (rest : List Int) :
    op.stumbles (a :: b :: rest) = op.stumbles [a, b] := by
  cases op with
  | _ => rfl

theorem stumbles_of_ne {op : Operation} {a : Int} (h : op = .rem → a ≠ Number.minSigned)
    (rest : List Int) : op.stumbles (a :: rest) = false := by
  cases op with
  | rem =>
    cases rest with
    | nil => rfl
    | cons b rest => simp [stumbles, h rfl]
  | _ => rfl

end Operation

/-! ## Kinds of words -/

/-- A kind of word to compute with. -/
structure WordKind (α : Type) where
  value : α → Int
  ofNumber? : Number → Option α
  toNumber : α → Number
  step : Operation → α → α → Option α
  /-- The integers that have a word. -/
  Fits : Int → Prop

def signedWords : WordKind Int64 where
  value := Int64.toInt
  ofNumber? := Number.toSigned?
  toNumber := Number.int
  step := Operation.signed
  Fits v := Number.minSigned ≤ v ∧ v ≤ Number.maxSigned

def unsignedWords : WordKind UInt64 where
  value w := w.toNat
  ofNumber? := Number.toUnsigned?
  toNumber := Number.normal
  step := Operation.unsigned
  Fits v := 0 ≤ v ∧ v ≤ Number.maxUnsigned

theorem unsignedWords_exists {v : Int} (h : unsignedWords.Fits v) :
    ∃ w, unsignedWords.value w = v := by
  have hword : Number.unsigned? v = some (UInt64.ofNat v.toNat) := if_pos h
  exact ⟨_, Number.unsigned?_eq_some_iff.1 hword⟩

namespace WordKind

variable {α : Type} {k : WordKind α} {op : Operation}

/-- Combines operands as words of the kind. -/
def fold (k : WordKind α) (op : Operation) (operands : List Number) : Option Number := do
  let words ← operands.mapM k.ofNumber?
  let result ← Operation.combine (k.step op) words
  return k.toNumber result

/-- Words of the kind stand for integers, and a step on them is the operation on the integers. -/
structure IsExact (k : WordKind α) : Prop where
  ofNumber?_eq_some_iff : ∀ {n w}, k.ofNumber? n = some w ↔ k.value w = n.value
  exists_word : ∀ {v}, k.Fits v → ∃ w, k.value w = v
  fits_zero : k.Fits 0
  value_toNumber : ∀ w, (k.toNumber w).value = k.value w
  isNormal_toNumber : ∀ w, (k.toNumber w).isNormal = true
  sound : ∀ {op a b r}, k.step op a b = some r → k.value r = op.meaning (k.value a) (k.value b)
  complete : ∀ {op a b}, (op.divides = true → k.value b ≠ 0) →
    op.stumbles [k.value a, k.value b] = false → k.Fits (op.meaning (k.value a) (k.value b)) →
    ∃ r, k.step op a b = some r
  rem_ne : ∀ {a b}, k.value b ≠ 0 →
    Operation.rem.meaning (k.value a) (k.value b) ≠ Number.minSigned

namespace IsExact

/-- Combining words from the left is combining integers. -/
theorem foldlM_sound (hk : k.IsExact) {rest : List α} {a r : α}
    (h : rest.foldlM (k.step op) a = some r) :
    k.value r = (rest.map k.value).foldl op.meaning (k.value a) := by
  induction rest generalizing a with
  | nil =>
    cases h
    rfl
  | cons b rest ih =>
    rw [List.foldlM_cons] at h
    obtain ⟨next, hnext, h⟩ := Option.bind_eq_some_iff.1 h
    rw [List.map_cons, List.foldl_cons, ← hk.sound hnext]
    exact ih h

theorem foldlM_complete (hk : k.IsExact) {rest : List α} {a : α}
    (hzero : op.divides = true → ∀ b ∈ rest, k.value b ≠ 0)
    (hfits : ∀ r ∈ (rest.map k.value).scanl op.meaning (k.value a), k.Fits r)
    (hstumble : op.stumbles (k.value a :: rest.map k.value) = false) :
    ∃ r, rest.foldlM (k.step op) a = some r := by
  induction rest generalizing a with
  | nil => exact ⟨a, rfl⟩
  | cons b rest ih =>
    rw [List.map_cons, List.scanl_cons] at hfits
    rw [List.map_cons, Operation.stumbles_cons] at hstumble
    have hrest := (List.forall_mem_cons.1 hfits).2
    have hb : op.divides = true → k.value b ≠ 0 := fun hop => hzero hop b List.mem_cons_self
    have hfirst : k.Fits (op.meaning (k.value a) (k.value b)) := by
      apply hrest
      cases rest with
      | nil => simp
      | cons d rest => simp [List.scanl_cons]
    obtain ⟨next, hnext⟩ := hk.complete hb hstumble hfirst
    -- Only the first step can stumble: no remainder is the least word.
    have hleast : op = .rem → k.value next ≠ Number.minSigned := by
      rintro rfl
      rw [hk.sound hnext]
      exact hk.rem_ne (hb rfl)
    rw [← hk.sound hnext] at hrest
    obtain ⟨r, hr⟩ := ih (a := next) (fun hop d hd => hzero hop d (List.mem_cons_of_mem b hd))
      hrest (Operation.stumbles_of_ne hleast _)
    refine ⟨r, ?_⟩
    rw [List.foldlM_cons, hnext]
    exact hr

theorem values_of_mapM (hk : k.IsExact) {operands : List Number} {words : List α}
    (h : operands.mapM k.ofNumber? = some words) :
    words.map k.value = operands.map Number.value := by
  induction operands generalizing words with
  | nil =>
    cases h
    rfl
  | cons n rest ih =>
    rw [List.mapM_cons] at h
    obtain ⟨w, hw, h⟩ := Option.bind_eq_some_iff.1 h
    obtain ⟨ws, hws, h⟩ := Option.bind_eq_some_iff.1 h
    cases h
    rw [List.map_cons, List.map_cons, ih hws, hk.ofNumber?_eq_some_iff.1 hw]

theorem exists_mapM (hk : k.IsExact) {operands : List Number}
    (h : ∀ n ∈ operands, k.Fits n.value) : ∃ words, operands.mapM k.ofNumber? = some words := by
  induction operands with
  | nil => exact ⟨[], rfl⟩
  | cons n rest ih =>
    obtain ⟨hfirst, hrest⟩ := List.forall_mem_cons.1 h
    obtain ⟨w, hw⟩ := hk.exists_word hfirst
    obtain ⟨ws, hws⟩ := ih hrest
    refine ⟨w :: ws, ?_⟩
    rw [List.mapM_cons, hk.ofNumber?_eq_some_iff.2 hw, hws]
    rfl

theorem exists_words (hk : k.IsExact) {operands : List Number} {n : Number}
    (h : k.fold op operands = some n) :
    ∃ (a : α) (rest : List α) (r : α),
      operands.map Number.value = k.value a :: rest.map k.value ∧
        rest.foldlM (k.step op) a = some r ∧ n = k.toNumber r := by
  obtain ⟨words, hwords, h⟩ := Option.bind_eq_some_iff.1 h
  obtain ⟨r, hr, h⟩ := Option.bind_eq_some_iff.1 h
  cases h
  cases words with
  | nil => cases hr
  | cons a rest => exact ⟨a, rest, r, (hk.values_of_mapM hwords).symm, hr, rfl⟩

/-- What words give is the result on the integers, in normal form. -/
theorem fold_sound (hk : k.IsExact) {operands : List Number} {n : Number}
    (h : k.fold op operands = some n) :
    n.isNormal = true ∧ ∃ a rest, operands.map Number.value = a :: rest ∧
      n.value = rest.foldl op.meaning a := by
  obtain ⟨a, rest, r, hvalues, hr, rfl⟩ := hk.exists_words h
  refine ⟨hk.isNormal_toNumber r, k.value a, rest.map k.value, hvalues, ?_⟩
  rw [hk.value_toNumber]
  exact hk.foldlM_sound hr

/-- There is a result if all integers on the way have words. -/
theorem fold_complete (hk : k.IsExact) {operands : List Number} {a : Int} {rest : List Int}
    (hvalues : operands.map Number.value = a :: rest) (hoperands : ∀ n ∈ operands, k.Fits n.value)
    (hzero : op.divides = true → ∀ b ∈ rest, b ≠ 0)
    (hfits : ∀ r ∈ rest.scanl op.meaning a, k.Fits r)
    (hstumble : op.stumbles (a :: rest) = false) : ∃ n, k.fold op operands = some n := by
  obtain ⟨words, hwords⟩ := hk.exists_mapM hoperands
  rw [← hk.values_of_mapM hwords] at hvalues
  obtain ⟨first, others, rfl, rfl, rfl⟩ := List.map_eq_cons_iff.1 hvalues
  have hothers : op.divides = true → ∀ b ∈ others, k.value b ≠ 0 :=
    fun hop b hb => hzero hop _ (List.mem_map_of_mem hb)
  obtain ⟨r, hr⟩ := hk.foldlM_complete hothers hfits hstumble
  refine ⟨k.toNumber r, ?_⟩
  rw [fold, hwords]
  change (others.foldlM (k.step op) first).bind (fun result => some (k.toNumber result)) = _
  rw [hr]
  rfl

end IsExact

end WordKind

/-! ## Signed and unsigned words -/

namespace Operation

variable {op : Operation}

theorem signed_sound {a b r : Int64} (h : op.signed a b = some r) :
    r.toInt = op.meaning a.toInt b.toInt := by
  unfold signed at h
  split at h
  · cases h
  · rw [Number.signed?_eq_some_iff.1 h, exact_eq_meaning]

/-- The quotient of the least word by -1 is out of range. -/
theorem div_least : ¬ div.meaning Int64.minValue.toInt (-1 : Int64).toInt ≤ Number.maxSigned := by
  decide

theorem signed_complete {a b : Int64} (hzero : op.divides = true → b.toInt ≠ 0)
    (hstumble : op.stumbles [a.toInt, b.toInt] = false)
    (hfits : signedWords.Fits (op.meaning a.toInt b.toInt)) : ∃ r, op.signed a b = some r := by
  have hleast : op.divides = true → ¬ (a = Int64.minValue ∧ b = -1) := by
    rintro hop ⟨rfl, rfl⟩
    cases op with
    | div => exact div_least hfits.2
    | rem => exact absurd hstumble (by decide)
    | add | sub | mul => cases hop
  have hguard : ¬ (op.divides && (b == 0 || (a == Int64.minValue && b == -1))) = true := by
    simp only [Bool.and_eq_true, Bool.or_eq_true, beq_iff_eq]
    rintro ⟨hop, rfl | hcorner⟩
    · exact hzero hop rfl
    · exact hleast hop hcorner
  refine ⟨Int64.ofInt (op.meaning a.toInt b.toInt), ?_⟩
  rw [signed, if_neg hguard, exact_eq_meaning]
  exact Number.signed?_eq_some_iff.2 (Number.toInt_ofInt hfits.1 hfits.2)

theorem unsigned_sound {a b r : UInt64} (h : op.unsigned a b = some r) :
    (r.toNat : Int) = op.meaning a.toNat b.toNat := by
  unfold unsigned at h
  split at h
  · cases h
  · rw [Number.unsigned?_eq_some_iff.1 h, exact_eq_meaning]

theorem unsigned_complete {a b : UInt64} (hzero : op.divides = true → (b.toNat : Int) ≠ 0)
    (hfits : unsignedWords.Fits (op.meaning a.toNat b.toNat)) : ∃ r, op.unsigned a b = some r := by
  have hguard : ¬ (op.divides && b == 0) = true := by
    simp only [Bool.and_eq_true, beq_iff_eq]
    rintro ⟨hop, rfl⟩
    exact hzero hop rfl
  obtain ⟨w, hw⟩ := unsignedWords_exists hfits
  refine ⟨w, ?_⟩
  rw [unsigned, if_neg hguard, exact_eq_meaning]
  exact Number.unsigned?_eq_some_iff.2 hw

end Operation

theorem signedWords_isExact : signedWords.IsExact where
  ofNumber?_eq_some_iff := Number.toSigned?_eq_some_iff
  exists_word := fun h => ⟨Int64.ofInt _, Number.toInt_ofInt h.1 h.2⟩
  fits_zero := ⟨by decide, by decide⟩
  value_toNumber _ := rfl
  isNormal_toNumber _ := rfl
  sound := Operation.signed_sound
  complete := Operation.signed_complete
  rem_ne := by
    intro a b hb hr
    have hlt := Operation.natAbs_rem_lt (signedWords.value a) hb
    have hmin : Number.minSigned ≤ b.toInt := Number.minSigned_le_value (.int b)
    have hmax : b.toInt < 2 ^ 63 := Int64.toInt_lt b
    change _ < b.toInt.natAbs at hlt
    rw [hr] at hlt
    unfold Number.minSigned at hlt hmin
    omega

theorem unsignedWords_isExact : unsignedWords.IsExact where
  ofNumber?_eq_some_iff := Number.toUnsigned?_eq_some_iff
  exists_word := unsignedWords_exists
  fits_zero := ⟨by decide, by decide⟩
  value_toNumber := Number.value_normal
  isNormal_toNumber := Number.isNormal_normal
  sound := Operation.unsigned_sound
  complete := fun hzero _ hfits => Operation.unsigned_complete hzero hfits
  rem_ne := by
    intro a b _ hr
    have hnonneg := Operation.rem_nonneg (Int.natCast_nonneg a.toNat) (unsignedWords.value b)
    change 0 ≤ Operation.rem.meaning (unsignedWords.value a) (unsignedWords.value b) at hnonneg
    rw [hr] at hnonneg
    unfold Number.minSigned at hnonneg
    omega

/-! ## Operations on numbers -/

namespace Operation

variable {op : Operation} {operands : List Number} {n : Number}

theorem divides_iff : op.divides = true ↔ op = .div ∨ op = .rem := by
  cases op with
  | _ => simp [divides]

theorem fold_sound (h : op.fold operands = .ok n) :
    n.isNormal = true ∧ ∃ a rest, operands.map Number.value = a :: rest ∧
      n.value = rest.foldl op.meaning a := by
  unfold fold at h
  split at h
  · next m hm =>
    cases h
    obtain hsigned | ⟨-, hunsigned⟩ := Option.or_eq_some_iff.1 hm
    · exact signedWords_isExact.fold_sound hsigned
    · exact unsignedWords_isExact.fold_sound hunsigned
  · cases h

/-- One kind of word is enough. -/
theorem fold_complete
    (h : (∃ n, signedWords.fold op operands = some n) ∨
      ∃ n, unsignedWords.fold op operands = some n) :
    ∃ n, op.fold operands = .ok n := by
  unfold fold
  split
  · next n _ => exact ⟨n, rfl⟩
  · next hnone =>
    obtain ⟨hsigned, hunsigned⟩ := Option.or_eq_none_iff.1 hnone
    obtain ⟨n, hn⟩ | ⟨n, hn⟩ := h
    · cases hsigned.symm.trans hn
    · cases hunsigned.symm.trans hn

/-- The remainder of the least signed word by -1 is given by neither kind of word. -/
theorem fold_of_stumbles (h : op.stumbles (operands.map Number.value) = true) :
    op.fold operands = .error (.arithmeticOverflow op.symbol) := by
  obtain ⟨rfl, rest, hvalues⟩ :
      op = .rem ∧ ∃ rest, operands.map Number.value = Number.minSigned :: -1 :: rest := by
    unfold stumbles at h
    split at h
    · next a b rest heq =>
      simp only [Bool.and_eq_true, beq_iff_eq] at h
      exact ⟨rfl, rest, by rw [heq, h.1, h.2]⟩
    · cases h
  -- As signed words the first step is the guarded one, and the least word is no unsigned one.
  have hsigned : rem.foldSigned operands = none := by
    refine Option.eq_none_iff_forall_ne_some.2 fun n hn => ?_
    obtain ⟨a, words, r, hwords, hr, -⟩ := signedWords_isExact.exists_words hn
    rw [hvalues] at hwords
    obtain ⟨ha, hwords⟩ := List.cons.inj hwords
    obtain ⟨b, words, rfl, hb, -⟩ := List.map_eq_cons_iff.1 hwords.symm
    have hleast : a = Int64.minValue := Int64.toInt_inj.1 ha.symm
    have hminus : b = -1 := Int64.toInt_inj.1 hb
    subst hleast hminus
    cases hr
  have hunsigned : rem.foldUnsigned operands = none := by
    refine Option.eq_none_iff_forall_ne_some.2 fun n hn => ?_
    obtain ⟨a, words, r, hwords, -⟩ := unsignedWords_isExact.exists_words hn
    rw [hvalues] at hwords
    have ha : Number.minSigned = (a.toNat : Int) := (List.cons.inj hwords).1
    unfold Number.minSigned at ha
    omega
  rw [fold, hsigned, hunsigned]
  rfl

theorem fold_ne_divisionByZero : op.fold operands ≠ .error .divisionByZero := by
  unfold fold
  split
  · exact fun h => by cases h
  · exact fun h => by cases h

/-- The operands as they are combined: a single one of a difference is taken from zero. -/
def combined : Operation → List Number → List Number
  | sub, [n] => [.int 0, n]
  | _, operands => operands

theorem onNumbers_cons (op : Operation) (first : Number) (rest : List Number) :
    op.onNumbers (first :: rest) =
      if op.divides && rest.any Number.isZero then .error .divisionByZero
      else op.fold (op.combined (first :: rest)) := by
  unfold onNumbers
  dsimp only
  split
  · rfl
  · cases rest with
    | nil =>
      cases op with
      | _ => rfl
    | cons second rest => simp [combined]

/-- Apart from a single operand of a difference, operands are combined as they are. -/
theorem combined_cases (op : Operation) (first : Number) (rest : List Number) :
    (op = .sub ∧ rest = []) ∨
      (op.combined (first :: rest) = first :: rest ∧
        op.total ((first :: rest).map Number.value) =
          (rest.map Number.value).foldl op.meaning first.value ∧
        op.partials ((first :: rest).map Number.value) =
          (rest.map Number.value).scanl op.meaning first.value) := by
  cases rest with
  | nil =>
    cases op with
    | sub => exact .inl ⟨rfl, rfl⟩
    | _ => exact .inr ⟨rfl, rfl, rfl⟩
  | cons second rest =>
    cases op with
    | _ => exact .inr ⟨rfl, rfl, rfl⟩

theorem total_of_combined {first : Number} {rest : List Number} {a : Int} {others : List Int}
    (h : (op.combined (first :: rest)).map Number.value = a :: others) :
    op.total ((first :: rest).map Number.value) = others.foldl op.meaning a := by
  obtain ⟨rfl, rfl⟩ | ⟨hcombined, htotal, -⟩ := combined_cases op first rest
  · cases h
    exact (Int.zero_sub _).symm
  · rw [hcombined] at h
    cases h
    exact htotal

theorem onNumbers_sound (h : op.onNumbers operands = .ok n) :
    n.value = op.total (operands.map Number.value) ∧ n.isNormal = true := by
  cases operands with
  | nil =>
    cases op with
    | add | mul =>
      cases h
      exact ⟨rfl, rfl⟩
    | sub | div | rem => cases h
  | cons first rest =>
    rw [onNumbers_cons] at h
    split at h
    · cases h
    · obtain ⟨hnormal, a, others, hvalues, hn⟩ := fold_sound h
      exact ⟨hn.trans (total_of_combined hvalues).symm, hnormal⟩

theorem onNumbers_eq_divisionByZero :
    op.onNumbers operands = .error .divisionByZero ↔
      op.divides = true ∧ ∃ n ∈ operands.tail, n.value = 0 := by
  cases operands with
  | nil =>
    cases op with
    | _ => simp [onNumbers, unit?, fold_ne_divisionByZero]
  | cons first rest =>
    rw [onNumbers_cons]
    split
    · next h => simpa [Number.isZero] using h
    · next h =>
      refine iff_of_false fold_ne_divisionByZero fun hzero => h ?_
      simpa [Number.isZero] using hzero

/-- Operands whose results on the way have words of a kind can be combined as such words. -/
theorem combined_complete {α : Type} {k : WordKind α} (hk : k.IsExact)
    {first : Number} {rest : List Number} (hoperands : ∀ n ∈ first :: rest, k.Fits n.value)
    (hzero : op.divides = true → ∀ n ∈ rest, n.value ≠ 0)
    (hfits : ∀ r ∈ op.partials ((first :: rest).map Number.value), k.Fits r)
    (hstumble : op.stumbles ((first :: rest).map Number.value) = false) :
    ∃ n, k.fold op (op.combined (first :: rest)) = some n := by
  have hdivisors : op.divides = true → ∀ b ∈ rest.map Number.value, b ≠ 0 := by
    intro hop b hb
    obtain ⟨n, hn, rfl⟩ := List.mem_map.1 hb
    exact hzero hop n hn
  obtain ⟨rfl, rfl⟩ | ⟨hcombined, -, hpartials⟩ := combined_cases op first rest
  · have hvalues : [Number.int 0, first].map Number.value = [0, first.value] := rfl
    have hnegated : k.Fits (0 - first.value) := by
      rw [Int.zero_sub]
      exact hfits _ List.mem_cons_self
    refine hk.fold_complete hvalues ?_ (by simp [divides]) ?_ rfl
    · exact List.forall_mem_cons.2 ⟨hk.fits_zero, hoperands⟩
    · exact List.forall_mem_cons.2 ⟨hk.fits_zero, List.forall_mem_singleton.2 hnegated⟩
  · rw [hcombined]
    rw [hpartials] at hfits
    exact hk.fold_complete rfl hoperands hdivisors hfits hstumble

theorem onNumbers_of_nonzero {first : Number} {rest : List Number}
    (hzero : op.divides = true → ∀ n ∈ rest, n.value ≠ 0) :
    op.onNumbers (first :: rest) = op.fold (op.combined (first :: rest)) := by
  rw [onNumbers_cons, if_neg]
  simp only [Bool.and_eq_true, List.any_eq_true, Number.isZero, beq_iff_eq]
  rintro ⟨hop, n, hn, hvalue⟩
  exact hzero hop n hn hvalue

/-- What stays in range has a result. -/
theorem onNumbers_complete (hleast : op.leastArgs ≤ operands.length)
    (hzero : op.divides = true → ∀ n ∈ operands.tail, n.value ≠ 0)
    (hrange : op.InRange (operands.map Number.value))
    (hstumble : op.stumbles (operands.map Number.value) = false) :
    ∃ n, op.onNumbers operands = .ok n := by
  cases operands with
  | nil =>
    cases op with
    | add | mul => exact ⟨_, rfl⟩
    | sub | div | rem => cases hleast
  | cons first rest =>
    rw [List.tail_cons] at hzero
    rw [onNumbers_of_nonzero hzero]
    refine fold_complete (hrange.imp (fun hsigned => ?_) fun hunsigned => ?_)
    · have hoperands : ∀ n ∈ first :: rest, signedWords.Fits n.value :=
        fun n hn => hsigned.1 _ (List.mem_map_of_mem hn)
      exact combined_complete signedWords_isExact hoperands hzero hsigned.2 hstumble
    · have hoperands : ∀ n ∈ first :: rest, unsignedWords.Fits n.value :=
        fun n hn => ⟨hunsigned.1 _ (List.mem_map_of_mem hn), n.value_le_maxUnsigned⟩
      exact combined_complete unsignedWords_isExact hoperands hzero hunsigned.2 hstumble

theorem onNumbers_of_stumbles
    (hzero : op.divides = true → ∀ n ∈ operands.tail, n.value ≠ 0)
    (hstumble : op.stumbles (operands.map Number.value) = true) :
    op.onNumbers operands = .error (.arithmeticOverflow op.symbol) := by
  cases operands with
  | nil =>
    cases op with
    | _ => cases hstumble
  | cons first rest =>
    have hcombined : op.combined (first :: rest) = first :: rest := by
      cases op with
      | rem => rfl
      | _ => cases hstumble
    rw [List.tail_cons] at hzero
    rw [onNumbers_of_nonzero hzero, hcombined]
    exact fold_of_stumbles hstumble

end Operation

/-! ## The tools -/

/-- The integer that a number node stands for. -/
def Node.integer : Node → Int
  | .number _ n => n.value
  | _ => 0

theorem asNumbers_of_kind {args : List Node} (h : ∀ n ∈ args, n.kind = .number) :
    ∃ operands, Node.asNumbers args = .ok operands ∧
      operands.map Number.value = args.map Node.integer := by
  induction args with
  | nil => exact ⟨[], rfl, rfl⟩
  | cons arg rest ih =>
    obtain ⟨hfirst, hrest⟩ := List.forall_mem_cons.1 h
    obtain ⟨operands, hoperands, hvalues⟩ := ih hrest
    cases arg with
    | number stamp n =>
      refine ⟨n :: operands, ?_, ?_⟩
      · rw [Node.asNumbers, hoperands]
        rfl
      · rw [List.map_cons, List.map_cons, hvalues]
        rfl
    | _ => cases hfirst

theorem exists_zero_iff {operands : List Number} {args : List Node}
    (h : operands.map Number.value = args.map Node.integer) :
    (∃ n ∈ operands.tail, n.value = 0) ↔ ∃ n ∈ args.tail, n.integer = 0 := by
  rw [← List.mem_map, ← List.mem_map, List.map_tail, List.map_tail, h]

namespace Operation

variable {op : Operation} {args : List Node}

theorem apply_of_few (h : args.length < op.leastArgs) :
    op.apply args = .error (.invalidArguments op.symbol (.tooFew op.leastArgs args.length)) :=
  if_pos h

theorem apply_of_numbers {operands : List Number} (hleast : op.leastArgs ≤ args.length)
    (h : Node.asNumbers args = .ok operands) :
    op.apply args = (op.onNumbers operands).map .ofNumber := by
  unfold apply
  rw [if_neg (by omega), h]
  change op.onNumbers operands >>= _ = _
  cases op.onNumbers operands with
  | ok n => rfl
  | error f => rfl

theorem apply_sound (hargs : ∀ n ∈ args, n.kind = .number) {value : Node}
    (h : op.apply args = .ok value) :
    ∃ n, value = .ofNumber n ∧ n.value = op.total (args.map Node.integer) ∧
      n.isNormal = true := by
  obtain ⟨operands, hoperands, hvalues⟩ := asNumbers_of_kind hargs
  by_cases hleast : args.length < op.leastArgs
  · rw [apply_of_few hleast] at h
    cases h
  · rw [apply_of_numbers (by omega) hoperands] at h
    cases hn : op.onNumbers operands with
    | error f =>
      rw [hn] at h
      cases h
    | ok n =>
      rw [hn] at h
      cases h
      rw [← hvalues]
      exact ⟨n, rfl, onNumbers_sound hn⟩

theorem apply_eq_divisionByZero (hargs : ∀ n ∈ args, n.kind = .number) :
    op.apply args = .error .divisionByZero ↔
      (op = .div ∨ op = .rem) ∧ 2 ≤ args.length ∧ ∃ n ∈ args.tail, n.integer = 0 := by
  obtain ⟨operands, hoperands, hvalues⟩ := asNumbers_of_kind hargs
  by_cases hleast : args.length < op.leastArgs
  · rw [apply_of_few hleast]
    refine iff_of_false (fun h => by cases h) ?_
    rintro ⟨rfl | rfl, htwo, -⟩
    · exact absurd hleast (Nat.not_lt.2 htwo)
    · exact absurd hleast (Nat.not_lt.2 htwo)
  · have hresult : op.apply args = .error .divisionByZero ↔
        op.onNumbers operands = .error .divisionByZero := by
      rw [apply_of_numbers (by omega) hoperands]
      cases op.onNumbers operands with
      | ok n => exact iff_of_false (fun h => by cases h) fun h => by cases h
      | error f => simp [Except.map]
    rw [hresult, onNumbers_eq_divisionByZero, divides_iff, exists_zero_iff hvalues]
    -- Enough arguments for a quotient or a remainder are two.
    refine and_congr_right fun hop => ⟨fun hzero => ⟨?_, hzero⟩, fun h => h.2⟩
    obtain rfl | rfl := hop
    · exact Nat.not_lt.1 hleast
    · exact Nat.not_lt.1 hleast

end Operation

namespace Tool

variable {σ : Type} (host : Host σ) (searchPath : List String) (op : Operation) {args : List Node}

/-- Arithmetic leaves the state as it is. -/
theorem call_arithmetic (args : List Node) (s : State σ) :
    (Tool.arithmetic op).call host searchPath args s =
      ((op.apply args).mapError Halt.fault, s) := by
  change Eval.ofExcept (op.apply args) s = _
  cases op.apply args with
  | ok n => rfl
  | error f => rfl

/-- **Arithmetic gives no wrong number.** A value is a number in normal form, the exact result on
the integers. Division by zero is reported exactly if a number is divided by zero. -/
theorem arithmetic_exact (hargs : ∀ n ∈ args, n.kind = .number) (s : State σ) :
    (∀ value s', (Tool.arithmetic op).call host searchPath args s = (.ok value, s') →
      ∃ n, value = .ofNumber n ∧ n.value = op.total (args.map Node.integer) ∧
        n.isNormal = true) ∧
    ((∃ s', (Tool.arithmetic op).call host searchPath args s =
        (.error (.fault .divisionByZero), s')) ↔
      (op = .div ∨ op = .rem) ∧ 2 ≤ args.length ∧ ∃ n ∈ args.tail, n.integer = 0) := by
  rw [← Operation.apply_eq_divisionByZero hargs]
  simp only [call_arithmetic]
  cases happly : op.apply args with
  | ok node =>
    refine ⟨fun value s' h => ?_, iff_of_false ?_ (fun h => by cases h)⟩
    · cases h
      exact Operation.apply_sound hargs happly
    · rintro ⟨s', h⟩
      cases h
  | error f =>
    refine ⟨fun value s' h => (by cases h), ?_, fun h => ?_⟩
    · rintro ⟨s', h⟩
      cases h
      rfl
    · cases h
      exact ⟨s, rfl⟩

/-- A sum beyond the signed range, of words of both kinds, and a remainder by an unsigned zero. -/
theorem arithmetic_exact_mixed :
    let s : State Machine := { env := {}, host := Machine.fresh }
    let big : Node := .ofNumber (.int 0x7fffffffffffffff)
    ((Tool.arithmetic .add).call Machine.host [] [big, .ofNumber (.uint 2)] s =
        (.ok (.ofNumber (.uint 0x8000000000000001)), s) ∧
      ∃ n, Node.ofNumber (.uint 0x8000000000000001) = .ofNumber n ∧
        n.value = 0x7fffffffffffffff + 2 ∧ n.isNormal = true) ∧
    ∃ s', (Tool.arithmetic .rem).call Machine.host [] [big, .ofNumber (.uint 0)] s =
      (.error (.fault .divisionByZero), s') := by
  intro s big
  have hkinds (m : Number) : ∀ n ∈ [big, .ofNumber m], n.kind = .number :=
    List.forall_mem_cons.2 ⟨rfl, List.forall_mem_singleton.2 rfl⟩
  have hsum : (Tool.arithmetic .add).call Machine.host [] [big, .ofNumber (.uint 2)] s =
      (.ok (.ofNumber (.uint 0x8000000000000001)), s) := rfl
  refine ⟨⟨hsum, (arithmetic_exact Machine.host [] .add (hkinds _) s).1 _ _ hsum⟩, ?_⟩
  refine (arithmetic_exact Machine.host [] .rem (hkinds _) s).2.2 ⟨.inr rfl, Nat.le_refl 2, ?_⟩
  exact ⟨_, List.mem_singleton_self _, rfl⟩

/-- **Arithmetic that stays in range gives a number.** The remainder of the least signed word by
-1 is the one exception: it is reported as an overflow, though it is zero. -/
theorem arithmetic_in_range (hargs : ∀ n ∈ args, n.kind = .number)
    (hleast : op.leastArgs ≤ args.length)
    (hzero : op = .div ∨ op = .rem → ∀ n ∈ args.tail, n.integer ≠ 0)
    (hrange : op.InRange (args.map Node.integer)) (s : State σ) :
    if op.stumbles (args.map Node.integer) then
      (Tool.arithmetic op).call host searchPath args s =
        (.error (.fault (.arithmeticOverflow op.symbol)), s)
    else ∃ n, (Tool.arithmetic op).call host searchPath args s = (.ok (.ofNumber n), s) := by
  obtain ⟨operands, hoperands, hvalues⟩ := asNumbers_of_kind hargs
  have hdivisors : op.divides = true → ∀ n ∈ operands.tail, n.value ≠ 0 := by
    intro hop n hn hvalue
    obtain ⟨arg, harg, hinteger⟩ := (exists_zero_iff hvalues).1 ⟨n, hn, hvalue⟩
    exact hzero (Operation.divides_iff.1 hop) arg harg hinteger
  have hlength : operands.length = args.length := by
    have := congrArg List.length hvalues
    simpa using this
  rw [← hvalues] at hrange ⊢
  simp only [call_arithmetic, Operation.apply_of_numbers hleast hoperands]
  split
  · next hstumble =>
    rw [Operation.onNumbers_of_stumbles hdivisors hstumble]
    rfl
  · next hstumble =>
    obtain ⟨n, hn⟩ := Operation.onNumbers_complete (hlength ▸ hleast) hdivisors hrange
      (Bool.eq_false_iff.2 hstumble)
    refine ⟨n, ?_⟩
    rw [hn]
    rfl

/-- A difference of words that the signed range does not hold. -/
theorem arithmetic_in_range_unsigned :
    let s : State Machine := { env := {}, host := Machine.fresh }
    let args : List Node := [.ofNumber (.uint 0xffffffffffffffff), .ofNumber (.int 1)]
    Operation.sub.InRange (args.map Node.integer) ∧
      ∃ n, (Tool.arithmetic .sub).call Machine.host [] args s = (.ok (.ofNumber n), s) := by
  intro s args
  have hkinds : ∀ n ∈ args, n.kind = .number :=
    List.forall_mem_cons.2 ⟨rfl, List.forall_mem_singleton.2 rfl⟩
  have hrange : Operation.sub.InRange (args.map Node.integer) := by
    right
    decide
  have hzero : Operation.sub = .div ∨ Operation.sub = .rem → ∀ n ∈ args.tail, n.integer ≠ 0 := by
    rintro (h | h)
    · cases h
    · cases h
  exact ⟨hrange, arithmetic_in_range Machine.host [] .sub hkinds (by decide) hzero hrange s⟩

/-- The remainder of the least signed word by -1 is zero, with all in the signed range, and is
reported as an overflow. -/
theorem remainder_of_least :
    let s : State Machine := { env := {}, host := Machine.fresh }
    let args : List Node := [.ofNumber (.int Int64.minValue), .ofNumber (.int (-1))]
    (∀ n ∈ args, n.kind = .number) ∧ Operation.rem.leastArgs ≤ args.length ∧
      (∀ n ∈ args.tail, n.integer ≠ 0) ∧ Operation.rem.InRange (args.map Node.integer) ∧
      Operation.rem.total (args.map Node.integer) = 0 ∧
      (Tool.arithmetic .rem).call Machine.host [] args s =
        (.error (.fault (.arithmeticOverflow "%")), s) := by
  intro s args
  have hkinds : ∀ n ∈ args, n.kind = .number :=
    List.forall_mem_cons.2 ⟨rfl, List.forall_mem_singleton.2 rfl⟩
  have hzero : ∀ n ∈ args.tail, n.integer ≠ 0 := List.forall_mem_singleton.2 (by decide)
  have hrange : Operation.rem.InRange (args.map Node.integer) := by
    left
    decide
  exact ⟨hkinds, Nat.le_refl 2, hzero, hrange, by decide, rfl⟩

end Tool

end ExprShell
