import DocQuery.Proofs.Json.Sources
import DocQuery.Proofs.Scalar.Grammar
/-!
# The types of JSON numbers

The reader of JSON numbers decides between integers and floats by what is behind the whole part: nothing, and then the
digits are an integer if they are in range, or a fraction or an exponent, and then the number is a float
(`number_eq_ok`).  A minus sign in front of a zero alone makes a float of it.
-/
namespace DocQuery.Json

open Scalar (Digits Exponent IntegerText)

/-- **The whole part of a number**: digits that begin with a zero only if it stands alone. -/
inductive WholeText : List Char → Prop
  | zero : WholeText ['0']
  | digits {c : Char} {ds : List Char} (hc : c.isDigit = true) (hne : c ≠ '0') (hds : ∀ d ∈ ds, d.isDigit = true) :
    WholeText (c :: ds)

/-- **A number by the grammar of JSON.** -/
inductive NumberText : List Char → Prop
  | intro {sign whole fraction power : List Char} {e : Int} (hsign : sign = [] ∨ sign = ['-'])
    (hwhole : WholeText whole) (hfraction : fraction = [] ∨ ∃ ds, Digits ds ∧ fraction = '.' :: ds)
    (hpower : Exponent e power) : NumberText (sign ++ (whole ++ (fraction ++ power)))

/-- **A number is typed as its text**: as an integer if it is the text of one, unless it is the negative zero. -/
def TypedAs (t : List Char) (k : Number) : Prop :=
  ∀ i : Int64, k = .integer i ↔ IntegerText i.toInt t ∧ t ≠ ['-', '0']

variable {negative : Bool} {m n dropped limit : Nat} {e exponent : Int} {k : Number}
  {whole fraction power ds cs rest rest' : List Char}

/-! ## Digits -/

theorem gather_cases (hrest : ∀ c ∈ rest.head?, c.isDigit = false) (hds : ∀ d ∈ ds, d.isDigit = true) (n : Nat) :
    ∃ m taken left, gather limit n (ds ++ rest) = (m, taken, left ++ rest) ∧ (∀ d ∈ left, d.isDigit = true) ∧
      (left = [] ∧ m = Nat.ofDigitChars 10 ds n ∨ left ≠ [] ∧ limit < Nat.ofDigitChars 10 ds n) := by
  induction ds generalizing n with
  | nil =>
    refine ⟨n, 0, [], ?_, nofun, .inl ⟨rfl, rfl⟩⟩
    cases rest with
    | nil => rfl
    | cons c rest => simp [gather, hrest c rfl]
  | cons d ds ih =>
    obtain ⟨hd, hds'⟩ := List.forall_mem_cons.1 hds
    rw [List.cons_append, gather, Nat.ofDigitChars_cons]
    by_cases hfits : 10 * n + (d.toNat - '0'.toNat) ≤ limit
    · obtain ⟨m, taken, left, hgather, hleft, hcases⟩ := ih hds' (10 * n + (d.toNat - '0'.toNat))
      refine ⟨m, taken + 1, left, ?_, hleft, hcases⟩
      rw [if_pos (by rw [hd, decide_eq_true hfits, Bool.true_and]), hgather]
    · refine ⟨n, 0, d :: ds, ?_, hds, .inr ⟨by simp, ?_⟩⟩
      · rw [if_neg (by rw [hd, decide_eq_false hfits]; decide), List.cons_append]
      · exact Nat.lt_of_lt_of_le (Nat.lt_of_not_le hfits) (le_ofDigitChars ds _)

def GivesFloat (read : Except Halt (Number × List Char)) (rest : List Char) : Prop :=
  ∀ k rest', read = .ok (k, rest') → rest' = rest ∧ ∃ x, k = .float x

theorem float_givesFloat (negative : Bool) (n : Nat) (e : Int) (rest : List Char) :
    GivesFloat (float negative n e rest) rest := by
  intro k rest' h
  unfold float at h
  split at h
  · cases h
    exact ⟨rfl, _, rfl⟩
  · cases h

theorem exponentPart_givesFloat {sign : List Char} {down : Bool} (hrest : ∀ c ∈ rest.head?, c.isDigit = false)
    (hsign : Scalar.Sign down sign) (hds : Digits ds) :
    GivesFloat (exponentPart negative n exponent (sign ++ (ds ++ rest))) rest := by
  intro k rest' h
  unfold exponentPart at h
  split at h
  rename_i down' digits hsplit
  have hdigits : digits = ds ++ rest := by
    cases hsign with
    | plus => exact (Prod.mk.inj hsplit).2.symm
    | minus => exact (Prod.mk.inj hsplit).2.symm
    | none =>
      obtain ⟨c, ds', rfl, -⟩ := hds.exists_cons
      have hc := hds.ne_sign c rfl
      rw [List.nil_append, List.cons_append] at hsplit
      split at hsplit
      · rename_i heq
        exact absurd (List.cons.inj heq).1 hc.2
      · rename_i heq
        exact absurd (List.cons.inj heq).1 hc.1
      · exact (Prod.mk.inj hsplit).2.symm
  subst hdigits
  split at h
  · cases h
  split at h
  · cases h
  obtain ⟨m, taken, left, hgather, hleft, -⟩ := @gather_cases exponentLimit ds rest hrest hds.isDigit 0
  rw [hgather] at h
  dsimp only at h
  split at h
  · split at h
    · cases h
    · cases h
      exact ⟨(Text.scan_append hleft hrest).2, _, rfl⟩
  · rename_i hany
    have hnil : left = [] := by
      cases left with
      | nil => rfl
      | cons d left => exact absurd (hleft d List.mem_cons_self) (by simpa using hany)
    rw [hnil, List.nil_append] at h
    exact float_givesFloat _ _ _ _ _ _ h

theorem exponentOrEnd_givesFloat (hrest : Follows rest) (hpower : Exponent e power) :
    GivesFloat (exponentOrEnd negative n exponent (power ++ rest)) rest := by
  have hhead := head_of_follows hrest
  cases hpower with
  | none =>
    rw [List.nil_append]
    unfold exponentOrEnd
    split
    · exact absurd rfl (hhead 'e' rfl).2.2.1
    · exact absurd rfl (hhead 'E' rfl).2.2.2
    · exact float_givesFloat _ _ _ _
  | power hletter hsign hdigits =>
    have hgives := @exponentPart_givesFloat negative n exponent _ rest _ _ (fun c hc => (hhead c hc).1) hsign hdigits
    rcases hletter with rfl | rfl
    · simpa [exponentOrEnd] using hgives
    · simpa [exponentOrEnd] using hgives

theorem head_power (hrest : Follows rest) (hpower : Exponent e power) :
    ∀ c ∈ (power ++ rest).head?, c.isDigit = false ∧ c ≠ '.' := by
  cases hpower with
  | none =>
    intro c hc
    have hhead := head_of_follows hrest c hc
    exact ⟨hhead.1, hhead.2.1⟩
  | power hletter =>
    rintro c ⟨⟩
    rcases hletter with rfl | rfl <;> decide

theorem fractionPart_givesFloat (hrest : Follows rest) (hds : Digits ds) (hpower : Exponent e power) :
    GivesFloat (fractionPart negative n exponent (ds ++ (power ++ rest))) rest := by
  intro k rest' h
  have hdigit := fun c hc => (head_power hrest hpower c hc).1
  unfold fractionPart at h
  split at h
  · cases h
  split at h
  · cases h
  obtain ⟨m, taken, left, hgather, hleft, -⟩ := @gather_cases significandLimit ds (power ++ rest) hdigit hds.isDigit n
  simp only [hgather, (Text.scan_append hleft hdigit).2] at h
  exact exponentOrEnd_givesFloat hrest hpower _ _ h

/-! ## Numbers -/

theorem number_whole (hwhole : WholeText whole) (hcs : ∀ c ∈ cs.head?, c.isDigit = false) :
    ∃ m dropped, number negative (whole ++ cs) = afterWhole negative m dropped cs ∧
      (dropped = 0 ∧ m = Nat.ofDigitChars 10 whole 0 ∨
        dropped ≠ 0 ∧ significandLimit < Nat.ofDigitChars 10 whole 0) := by
  cases hwhole with
  | zero =>
    refine ⟨0, 0, ?_, .inl ⟨rfl, rfl⟩⟩
    have hany : cs.head?.any Char.isDigit = false := by
      cases hr : cs.head? with
      | none => rfl
      | some c => exact hcs c hr
    rw [List.singleton_append, number, hany]
    rfl
  | @digits c ds hc hne hds =>
    have hall : ∀ d ∈ c :: ds, d.isDigit = true := List.forall_mem_cons.2 ⟨hc, hds⟩
    obtain ⟨m, taken, left, hgather, hleft, hcases⟩ := @gather_cases significandLimit (c :: ds) cs hcs hall 0
    refine ⟨m, left.length, ?_, ?_⟩
    · obtain ⟨htake, hdrop⟩ := Text.scan_append hleft hcs
      rw [List.cons_append] at hgather ⊢
      unfold number
      split
      · simp_all
      · rename_i heq
        exact absurd (List.cons.inj heq).1 hne
      · rename_i heq
        obtain ⟨rfl, -⟩ := List.cons.inj heq
        simp only [hc, Bool.not_true, Bool.false_eq_true, if_false, hgather, htake, hdrop]
    · rcases hcases with ⟨rfl, hm⟩ | ⟨hne, hlt⟩
      · exact .inl ⟨rfl, hm⟩
      · exact .inr ⟨by simpa using hne, hlt⟩

theorem integer_eq_iff {i : Int64} : integer negative n = .integer i ↔
    Double.signed negative n = i.toInt ∧ ¬(negative = true ∧ n = 0) := by
  have hzero : (negative && n == 0) = true ↔ negative = true ∧ n = 0 := by simp
  unfold integer
  split
  · rename_i h
    exact iff_of_false nofun fun hi => hi.2 (hzero.1 h)
  · rename_i h
    rw [and_iff_left (mt hzero.2 h), ← int64?_eq_some_iff]
    cases int64? (Double.signed negative n) with
    | none => exact iff_of_false nofun nofun
    | some j => simp

theorem not_signed_of_lt {i : Int64} (h : significandLimit < n) : Double.signed negative n ≠ i.toInt := by
  have hmin := i.le_toInt
  have hmax := i.toInt_lt
  have hlimit : significandLimit = 2 ^ 64 - 1 := rfl
  unfold Double.signed
  split <;> omega

theorem afterWhole_givesFloat (hfraction : fraction = [] ∨ ∃ ds, Digits ds ∧ fraction = '.' :: ds)
    (hpower : Exponent e power) (hrest : Follows rest) (h : fraction ++ power ≠ [] ∨ dropped ≠ 0) :
    GivesFloat (afterWhole negative m dropped (fraction ++ (power ++ rest))) rest := by
  rcases hfraction with rfl | ⟨ds, hds, rfl⟩
  · have hhead := head_of_follows hrest
    cases hpower with
    | none =>
      rw [List.nil_append, List.nil_append, afterWhole_end hrest, if_neg (h.resolve_left fun hne => hne rfl)]
      exact float_givesFloat _ _ _ _
    | power hletter hsign hdigits =>
      have hgives := @exponentPart_givesFloat negative m dropped _ rest _ _ (fun c hc => (hhead c hc).1) hsign hdigits
      rcases hletter with rfl | rfl
      · simpa [afterWhole] using hgives
      · simpa [afterWhole] using hgives
  · exact fractionPart_givesFloat hrest hds hpower

/-- **A number is an integer** if nothing is behind its whole part, its digits are in range and it is no negative zero. -/
theorem number_eq_ok (hwhole : WholeText whole) (hfraction : fraction = [] ∨ ∃ ds, Digits ds ∧ fraction = '.' :: ds)
    (hpower : Exponent e power) (hrest : Follows rest)
    (h : number negative (whole ++ (fraction ++ (power ++ rest))) = .ok (k, rest')) :
    rest' = rest ∧ ∀ i, k = .integer i ↔ fraction ++ power = [] ∧
      Double.signed negative (Nat.ofDigitChars 10 whole 0) = i.toInt ∧
        ¬(negative = true ∧ Nat.ofDigitChars 10 whole 0 = 0) := by
  have hbehind : ∀ c ∈ (fraction ++ (power ++ rest)).head?, c.isDigit = false := by
    rcases hfraction with rfl | ⟨ds, -, rfl⟩
    · exact fun c hc => (head_power hrest hpower c hc).1
    · rintro c ⟨⟩
      rfl
  obtain ⟨m, dropped, hnumber, hcases⟩ := @number_whole negative _ _ hwhole hbehind
  rw [hnumber] at h
  by_cases hinteger : fraction ++ power = [] ∧ dropped = 0
  · obtain ⟨hnil, hdropped⟩ := hinteger
    obtain ⟨rfl, rfl⟩ := List.append_eq_nil_iff.1 hnil
    obtain ⟨rfl, rfl⟩ := hcases.resolve_right fun hlarge => hlarge.1 hdropped
    rw [List.nil_append, List.nil_append, afterWhole_follows hrest] at h
    cases h
    exact ⟨rfl, fun i => by rw [integer_eq_iff, and_iff_right hnil]⟩
  · have hnot : fraction ++ power ≠ [] ∨ dropped ≠ 0 := not_and_or.1 hinteger
    obtain ⟨hrest', x, rfl⟩ := afterWhole_givesFloat hfraction hpower hrest hnot _ _ h
    refine ⟨hrest', fun i => iff_of_false nofun ?_⟩
    rintro ⟨hnil, hsigned, -⟩
    have hdropped := hnot.resolve_left fun hne => hne hnil
    exact not_signed_of_lt (hcases.resolve_left fun hfits => hdropped hfits.1).2 hsigned

/-! ## Values -/

theorem WholeText.isDigits (h : WholeText whole) : Digits whole := by
  cases h with
  | zero => exact ⟨by simp, by simp⟩
  | digits hc hne hds => exact ⟨by simp, List.forall_mem_cons.2 ⟨hc, hds⟩⟩

theorem WholeText.eq_zero_iff (h : WholeText whole) : Nat.ofDigitChars 10 whole 0 = 0 ↔ whole = ['0'] := by
  cases h with
  | zero => exact iff_of_true rfl rfl
  | @digits c ds hc hne hds =>
    refine iff_of_false ?_ fun heq => hne (List.cons.inj heq).1
    have hle := le_ofDigitChars ds (10 * 0 + (c.toNat - '0'.toNat))
    have hlow : '0'.toNat ≤ c.toNat := (Char.isDigit_iff_toNat.1 hc).1
    have hvalue : c.toNat ≠ '0'.toNat := fun heq => hne (Char.toNat_inj.1 heq)
    rw [Nat.ofDigitChars_cons]
    omega

theorem integerText_parts {sign : List Char} {i : Int} (hsign : Scalar.Sign negative sign) (hwhole : WholeText whole)
    (hfraction : fraction = [] ∨ ∃ ds, Digits ds ∧ fraction = '.' :: ds) (hpower : Exponent e power) :
    IntegerText i (sign ++ (whole ++ (fraction ++ power))) ↔
      fraction ++ power = [] ∧ Double.signed negative (Nat.ofDigitChars 10 whole 0) = i := by
  have hhead : ∀ c ∈ (whole ++ (fraction ++ power)).head?, c ≠ '-' ∧ c ≠ '+' := by
    intro c hc
    obtain ⟨d, ds, rfl, hd⟩ := hwhole.isDigits.exists_cons
    cases hc
    exact Scalar.ne_sign_of_isDigit hd
  rw [Scalar.integerText_iff, Scalar.splitSign_append hsign hhead]
  constructor
  · rintro ⟨hdigits, hvalue⟩
    have hnil : fraction ++ power = [] := by
      have hall : ∀ c ∈ fraction ++ power, c.isDigit = true := fun c hc => hdigits.isDigit c (by simp [hc])
      rcases hfraction with rfl | ⟨ds, -, rfl⟩
      · cases hpower with
        | none => rfl
        | power hletter =>
          have hletter' := hall _ List.mem_cons_self
          rcases hletter with rfl | rfl <;> cases hletter'
      · exact absurd (hall '.' List.mem_cons_self) (by decide)
    rw [hnil, List.append_nil] at hvalue
    exact ⟨hnil, hvalue⟩
  · rintro ⟨hnil, hvalue⟩
    rw [hnil, List.append_nil]
    exact ⟨hwhole.isDigits, hvalue⟩

/-- **A number by the grammar of JSON is read to its end**, and as an integer if it is the text of one, unless it is the
negative zero. -/
theorem NumberText.value_eq_ok {depth : Nat} {t : List Char} {v : Value} (ht : NumberText t) (hrest : Follows rest)
    (h : value depth (t ++ rest) = .ok (v, rest')) : rest' = rest ∧ ∃ k, v = .scalar (.number k) ∧ TypedAs t k := by
  obtain ⟨hsign, hwhole, hfraction, hpower⟩ := ht
  rename_i sign whole fraction power e
  obtain ⟨c, ds, hcons, hc⟩ := hwhole.isDigits.exists_cons
  have hassoc : whole ++ (fraction ++ power) ++ rest = whole ++ (fraction ++ (power ++ rest)) := by
    simp only [List.append_assoc]
  have hread : ∀ {negative : Bool}, (number negative (whole ++ (fraction ++ (power ++ rest)))).bind
      (fun r => .ok (Value.number r.1, r.2)) = .ok (v, rest') → rest' = rest ∧ ∃ k, v = .scalar (.number k) ∧
        ∀ i, k = .integer i ↔ fraction ++ power = [] ∧ Double.signed negative (Nat.ofDigitChars 10 whole 0) = i.toInt ∧
          ¬(negative = true ∧ Nat.ofDigitChars 10 whole 0 = 0) := by
    intro negative hbind
    obtain ⟨⟨k, mid⟩, hnumber, he⟩ := bind_eq_ok hbind
    cases he
    obtain ⟨hmid, hk⟩ := number_eq_ok hwhole hfraction hpower hrest hnumber
    exact ⟨hmid, k, rfl, hk⟩
  rcases hsign with rfl | rfl
  · rw [List.nil_append, hassoc, hcons, List.cons_append, value_digit hc, ← List.cons_append, ← hcons] at h
    obtain ⟨hrest', k, hv, hk⟩ := hread h
    refine ⟨hrest', k, hv, fun i => ?_⟩
    have hne : [] ++ (whole ++ (fraction ++ power)) ≠ ['-', '0'] := by
      rw [hcons]
      intro heq
      exact (Scalar.ne_sign_of_isDigit hc).1 (List.cons.inj heq).1
    rw [hk, integerText_parts .none hwhole hfraction hpower, and_iff_left hne]
    simp
  · have hminus : value depth ('-' :: (whole ++ (fraction ++ (power ++ rest)))) =
        (number true (whole ++ (fraction ++ (power ++ rest)))).bind fun r => .ok (.number r.1, r.2) := by
      simp [value, skipSpace_cons, isSpace]
      rfl
    rw [List.append_assoc, List.singleton_append, hassoc, hminus] at h
    obtain ⟨hrest', k, hv, hk⟩ := hread h
    refine ⟨hrest', k, hv, fun i => ?_⟩
    rw [hk, integerText_parts .minus hwhole hfraction hpower, and_assoc]
    refine and_congr_right fun hnil => and_congr_right fun _ => not_congr ?_
    rw [hnil, hwhole.eq_zero_iff]
    simp

/-! ## Objects of numbers -/

/-- The members behind the first, each after its comma: keys and the texts of their values. -/
def memberTexts (spacing : Spacing) : List (String × List Char) → List Char
  | [] => []
  | (key, t) :: members =>
    ',' :: (spacing.gap 1 ++ stringText key ++ spacing.colon ++ t ++ memberTexts spacing members)

def objectText (spacing : Spacing) : List (String × List Char) → List Char
  | [] => ['{', '}']
  | (key, t) :: members =>
    '{' :: (spacing.gap 1 ++ stringText key ++ spacing.colon ++ t ++ memberTexts spacing members ++ spacing.gap 0 ++
      ['}'])

def Gives (member : String × List Char) (pair : String × Source) : Prop :=
  pair.1 = member.1 ∧ ∃ k, pair.2 = .scalar (.number k) ∧ TypedAs member.2 k

section Objects

variable {spacing : Spacing} {t : List Char} {pairs : List (String × Source)} {members : List (String × List Char)}

theorem NumberText.head (ht : NumberText t) : ∃ c ds, t = c :: ds ∧ (c = '-' ∨ c.isDigit = true) := by
  obtain ⟨hsign, hwhole, -, -⟩ := ht
  obtain ⟨c, ds, rfl, hc⟩ := hwhole.isDigits.exists_cons
  rcases hsign with rfl | rfl
  · exact ⟨c, _, rfl, .inr hc⟩
  · exact ⟨'-', _, rfl, .inl rfl⟩

theorem NumberText.spells {source : Source} {blanks : List Char} (ht : NumberText t) (hrest : Follows rest)
    (hblanks : ∀ c ∈ blanks, isSpace c = true) (h : Spells (.value source) (blanks ++ (t ++ rest)) rest') :
    rest' = rest ∧ ∃ k, source = .scalar (.number k) ∧ TypedAs t k := by
  obtain ⟨c, ds, rfl, hc⟩ := ht.head
  have hspace : isSpace c = false := by
    rcases hc with rfl | hc
    · rfl
    · have hne : ∀ d : Char, d.isDigit = false → c ≠ d := fun d => ne_of_isDigit hc
      simp [isSpace, hne]
  have hskip : skipSpace (blanks ++ (c :: ds ++ rest)) = c :: (ds ++ rest) := by
    rw [skipSpace_append hblanks, List.cons_append, skipSpace_cons hspace]
  have hclosed : ∀ d : Char, d.isDigit = false → d ≠ '-' → c ≠ d := by
    intro d hd hminus
    rcases hc with rfl | hc
    · exact hminus.symm
    · exact ne_of_isDigit hc hd
  cases h with
  | scalar h =>
    rw [value_append hblanks] at h
    obtain ⟨hrest', k, hv, hk⟩ := ht.value_eq_ok hrest h
    exact ⟨hrest', k, congrArg Source.scalar (Value.scalar.inj hv), hk⟩
  | array hopen =>
    rw [hskip] at hopen
    exact absurd (List.cons.inj hopen).1 (hclosed '[' rfl (by decide))
  | object hopen =>
    rw [hskip] at hopen
    exact absurd (List.cons.inj hopen).1 (hclosed '{' rfl (by decide))

theorem spells_member {first : Bool} {key : String} (hspacing : spacing.Blank) (ht : NumberText t)
    (hcs : Separated first cs (spacing.gap 1 ++ stringText key ++ spacing.colon ++ t ++ rest)) (hrest : Follows rest)
    (h : Spells (.members first pairs) cs rest') :
    ∃ pair pairs', pairs = pair :: pairs' ∧ Gives (key, t) pair ∧ Spells (.members false pairs') rest rest' := by
  obtain ⟨blanks, hcolon, hblanks⟩ := hspacing.colon
  have hquote : skipSpace (spacing.gap 1 ++ stringText key ++ spacing.colon ++ t ++ rest) =
      '"' :: (key.toList.flatMap escaped ++ '"' :: ':' :: (blanks ++ (t ++ rest))) := by
    have hskip := skipSpace_append (hspacing.gap 1) (stringText key ++ spacing.colon ++ t ++ rest)
    simp only [List.append_assoc] at hskip ⊢
    rw [hskip, stringText, hcolon, List.cons_append, List.cons_append, skipSpace_cons rfl]
    simp only [List.append_assoc, List.cons_append, List.nil_append]
  cases h with
  | endMembers hclose =>
    rw [hcs.ne_close hclose (by decide)] at hquote
    cases hquote
  | member hcomma hquote' hkey hcolon' hvalue hmore =>
    obtain rfl := hcs.eq hcomma
    rw [hquote] at hquote'
    cases hquote'
    rw [string_written] at hkey
    cases hkey
    rw [skipSpace_cons rfl] at hcolon'
    cases hcolon'
    obtain ⟨rfl, k, rfl, hk⟩ := ht.spells hrest hblanks hvalue
    exact ⟨_, _, rfl, ⟨rfl, k, rfl, hk⟩, hmore⟩

theorem follows_memberTexts (hspacing : spacing.Blank) (members : List (String × List Char)) (tail : List Char) :
    Follows (memberTexts spacing members ++ (spacing.gap 0 ++ '}' :: tail)) := by
  cases members with
  | nil =>
    rw [memberTexts, List.nil_append]
    exact follows_append (hspacing.gap 0) (follows_cons (by simp) tail)
  | cons m members => exact follows_cons (c := ',') (by simp) _

theorem spells_memberTexts (hspacing : spacing.Blank) {tail : List Char} (hmembers : ∀ m ∈ members, NumberText m.2)
    (h : Spells (.members false pairs) (memberTexts spacing members ++ (spacing.gap 0 ++ '}' :: tail)) rest') :
    List.Forall₂ Gives members pairs := by
  induction members generalizing pairs with
  | nil =>
    have hclose : skipSpace (spacing.gap 0 ++ '}' :: tail) = '}' :: tail := by
      rw [skipSpace_append (hspacing.gap 0), skipSpace_cons rfl]
    cases h with
    | endMembers => exact .nil
    | member hcomma =>
      have hcomma' : skipSpace (spacing.gap 0 ++ '}' :: tail) = ',' :: _ := hcomma
      rw [hclose] at hcomma'
      cases hcomma'
  | cons m members ih =>
    obtain ⟨key, t⟩ := m
    obtain ⟨ht, hmembers⟩ := List.forall_mem_cons.1 hmembers
    have hcs : Separated false (memberTexts spacing ((key, t) :: members) ++ (spacing.gap 0 ++ '}' :: tail))
        (spacing.gap 1 ++ stringText key ++ spacing.colon ++ t ++
          (memberTexts spacing members ++ (spacing.gap 0 ++ '}' :: tail))) := by
      have hskip := skipSpace_cons (c := ',') rfl (spacing.gap 1 ++ stringText key ++ spacing.colon ++ t ++
        (memberTexts spacing members ++ (spacing.gap 0 ++ '}' :: tail)))
      have hcomma : Separated false (',' :: _) _ := hskip
      simpa only [memberTexts, List.append_assoc, List.cons_append] using hcomma
    obtain ⟨pair, pairs', rfl, hpair, hmore⟩ := spells_member hspacing ht hcs (follows_memberTexts hspacing _ _) h
    exact .cons hpair (ih hmembers hmore)

theorem spells_object {body : List Char} {source : Source} (h : Spells (.value source) ('{' :: body) rest) :
    ∃ pairs, source = .object pairs ∧ Spells (.members true pairs) body rest := by
  have hopen : skipSpace ('{' :: body) = '{' :: body := skipSpace_cons rfl body
  cases h with
  | scalar h =>
    obtain ⟨depth, ms, hdepth, -⟩ := value_object_eq_ok hopen h
    cases hdepth
  | array hopen' =>
    rw [hopen] at hopen'
    cases hopen'
  | object hopen' hmembers =>
    rw [hopen] at hopen'
    cases hopen'
    exact ⟨_, rfl, hmembers⟩

/-- **An object written with numbers** is read as its keys and numbers, each typed as its text. -/
theorem document_objectText (hspacing : spacing.Blank) (hmembers : ∀ m ∈ members, NumberText m.2) {v : Value}
    (h : document (objectText spacing members) = .ok v) :
    ∃ pairs, v = (Source.object pairs).value ∧ List.Forall₂ Gives members pairs := by
  obtain ⟨⟨w, rest⟩, hvalue, hrest⟩ := bind_eq_ok h
  dsimp only at hrest
  split at hrest
  · cases hrest
    obtain ⟨source, hsource, rfl⟩ := exists_spells hvalue
    cases members with
    | nil =>
      obtain ⟨pairs, rfl, hpairs⟩ := spells_object hsource
      cases hpairs with
      | endMembers => exact ⟨[], rfl, .nil⟩
      | member hcomma hquote =>
        have hbehind : _ = ['}'] := hcomma
        rw [hbehind, skipSpace_cons rfl] at hquote
        cases hquote
    | cons m members =>
      obtain ⟨key, t⟩ := m
      obtain ⟨ht, hmembers⟩ := List.forall_mem_cons.1 hmembers
      obtain ⟨pairs, rfl, hpairs⟩ := spells_object hsource
      have hbody : Separated true (spacing.gap 1 ++ stringText key ++ spacing.colon ++ t ++
          memberTexts spacing members ++ spacing.gap 0 ++ ['}']) (spacing.gap 1 ++ stringText key ++ spacing.colon ++ t ++
            (memberTexts spacing members ++ (spacing.gap 0 ++ ['}']))) := by
        simp only [List.append_assoc]
        exact rfl
      obtain ⟨pair, pairs', rfl, hpair, hmore⟩ :=
        spells_member hspacing ht hbody (follows_memberTexts hspacing members []) hpairs
      exact ⟨_, rfl, .cons hpair (spells_memberTexts hspacing hmembers hmore)⟩
  · cases hrest

end Objects

end DocQuery.Json
