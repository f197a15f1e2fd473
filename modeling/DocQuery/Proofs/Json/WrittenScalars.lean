import DocQuery.Json.Reader
import DocQuery.Json.Writer
import DocQuery.Proofs.Scalar.Writing
import DocQuery.Proofs.Value.Parts
/-!
# Scalars as JSON text

A written scalar is read back as it was, whatever may stand behind a value: a string because each character is written
as itself or as an escape that means it, an integer because the reader gathers all of its digits and what follows does
not go on with the number.
-/
namespace DocQuery.Json

/-- **What may stand behind a value**: white space, a comma or the end of a container, or nothing. -/
def Follows (rest : List Char) : Prop :=
  ∀ c ∈ rest.head?, isSpace c = true ∨ c ∈ [',', ']', '}']

/-! ## Readers -/

section Readers

variable {ε α β : Type}

@[simp] theorem ok_bind (a : α) (f : α → Except ε β) : (Except.ok a >>= f) = f a := rfl

@[simp] theorem pure_eq_ok (a : α) : (pure a : Except ε α) = .ok a := rfl

end Readers

/-! ## Strings -/

theorem codeUnit_low {n : Nat} (h : n < 0x100) (cs : List Char) :
    codeUnit ('0' :: '0' :: hexDigit (n / 16) :: hexDigit n :: cs) = .ok (n, cs) := by
  have hlength : ¬Text.byteLength ('0' :: '0' :: hexDigit (n / 16) :: hexDigit n :: cs) < 4 := by
    have hhigh := Char.utf8Size_pos (hexDigit (n / 16))
    have hlow := Char.utf8Size_pos (hexDigit n)
    have hzero : Char.utf8Size '0' = 1 := rfl
    simp only [Text.byteLength, List.foldr_cons, hzero]
    omega
  have hzero : Text.hexValue? '0' = some 0 := by decide
  have hhigh : Text.hexValue? (hexDigit (n / 16)) = some (n / 16 % 16) :=
    Text.hexValue?_digitChar (Nat.mod_lt _ (by decide))
  have hlow : Text.hexValue? (hexDigit n) = some (n % 16) := Text.hexValue?_digitChar (Nat.mod_lt _ (by decide))
  have hnumber : Text.hexNumber? ['0', '0', hexDigit (n / 16), hexDigit n] = some n := by
    simp only [Text.hexNumber?, List.foldlM_cons, List.foldlM_nil, hzero, hhigh, hlow, Option.map_some, bind,
      Option.bind_some, pure, Option.some.injEq]
    omega
  rw [codeUnit, if_neg hlength]
  simp only [hnumber]

theorem escape_low {c : Char} (h : c.toNat < 0x20) (cs : List Char) :
    escape ('u' :: '0' :: '0' :: hexDigit (c.toNat / 16) :: hexDigit c.toNat :: cs) = .ok (c, cs) := by
  have hunit := codeUnit_low (n := c.toNat) (by omega) cs
  have hpair : ¬(0xDC00 ≤ c.toNat ∧ c.toNat ≤ 0xDFFF) := by omega
  have hhigh : ¬(0xD800 ≤ c.toNat ∧ c.toNat ≤ 0xDBFF) := by omega
  simp [escape, hunit, hpair, hhigh]

theorem escaped_cases (c : Char) : (escaped c = [c] ∧ c ≠ '"' ∧ c ≠ '\\' ∧ ¬c.toNat < 0x20) ∨
    ∃ more, escaped c = '\\' :: more ∧ ∀ cs, escape (more ++ cs) = .ok (c, cs) := by
  by_cases hplain : c ∈ ['"', '\\', '\x08', '\x0c', '\n', '\r', '\t']
  · refine .inr ?_
    simp only [List.mem_cons, List.not_mem_nil, or_false] at hplain
    rcases hplain with rfl | rfl | rfl | rfl | rfl | rfl | rfl
    · exact ⟨['"'], rfl, fun cs => rfl⟩
    · exact ⟨['\\'], rfl, fun cs => rfl⟩
    · exact ⟨['b'], rfl, fun cs => rfl⟩
    · exact ⟨['f'], rfl, fun cs => rfl⟩
    · exact ⟨['n'], rfl, fun cs => rfl⟩
    · exact ⟨['r'], rfl, fun cs => rfl⟩
    · exact ⟨['t'], rfl, fun cs => rfl⟩
  · simp only [List.mem_cons, List.not_mem_nil, or_false, not_or] at hplain
    obtain ⟨hquote, hback, hb, hf, hn, hr, ht⟩ := hplain
    by_cases hlow : c.toNat < 0x20
    · refine .inr ⟨['u', '0', '0', hexDigit (c.toNat / 16), hexDigit c.toNat], ?_, escape_low hlow⟩
      rw [escaped, if_neg hquote, if_neg hback, if_neg hb, if_neg hf, if_neg hn, if_neg hr, if_neg ht, if_pos hlow]
    · refine .inl ⟨?_, hquote, hback, hlow⟩
      rw [escaped, if_neg hquote, if_neg hback, if_neg hb, if_neg hf, if_neg hn, if_neg hr, if_neg ht, if_neg hlow]

theorem characters_escaped {c : Char} {fuel : Nat} {cs s rest : List Char}
    (h : characters fuel cs = .ok (s, rest)) : characters (fuel + 1) (escaped c ++ cs) = .ok (c :: s, rest) := by
  rcases escaped_cases c with ⟨he, hquote, hback, hlow⟩ | ⟨more, he, hmore⟩
  · simp [he, characters, hlow, h]
  · simp [he, characters, hmore, h]

theorem characters_written (rest : List Char) : ∀ (s : List Char) (fuel : Nat), s.length < fuel →
    characters fuel (s.flatMap escaped ++ '"' :: rest) = .ok (s, rest)
  | _, 0, h => absurd h (Nat.not_lt_zero _)
  | [], fuel + 1, _ => by simp [characters]
  | c :: s, fuel + 1, h => by
    rw [List.flatMap_cons, List.append_assoc]
    exact characters_escaped (characters_written rest s fuel (Nat.lt_of_succ_lt_succ h))

theorem length_le_flatMap_escaped : ∀ s : List Char, s.length ≤ (s.flatMap escaped).length
  | [] => Nat.le_refl _
  | c :: s => by
    have ih := length_le_flatMap_escaped s
    have hc : 1 ≤ (escaped c).length := by
      rcases escaped_cases c with ⟨he, -⟩ | ⟨more, he, -⟩ <;> simp [he]
    rw [List.flatMap_cons, List.length_append, List.length_cons]
    omega

theorem string_written (s : String) (rest : List Char) :
    string (s.toList.flatMap escaped ++ '"' :: rest) = .ok (s, rest) := by
  have hfuel : s.toList.length < (s.toList.flatMap escaped ++ '"' :: rest).length := by
    have := length_le_flatMap_escaped s.toList
    simp only [List.length_append, List.length_cons]
    omega
  rw [string, characters_written rest _ _ hfuel]
  simp

/-! ## Integers -/

theorem le_ofDigitChars : ∀ (ds : List Char) (m : Nat), m ≤ Nat.ofDigitChars 10 ds m
  | [], m => Nat.le_refl m
  | d :: ds, m => by
    have := le_ofDigitChars ds (10 * m + (d.toNat - '0'.toNat))
    rw [Nat.ofDigitChars_cons]
    omega

theorem gather_digits {limit : Nat} {rest : List Char} (hrest : ∀ c ∈ rest.head?, c.isDigit = false) :
    ∀ (ds : List Char) (m : Nat), (∀ d ∈ ds, d.isDigit = true) → Nat.ofDigitChars 10 ds m ≤ limit →
      gather limit m (ds ++ rest) = (Nat.ofDigitChars 10 ds m, ds.length, rest)
  | [], m, _, _ => by
    cases rest with
    | nil => rfl
    | cons c rest => simp [gather, hrest c rfl]
  | d :: ds, m, hd, hlimit => by
    obtain ⟨hdigit, hds⟩ := List.forall_mem_cons.1 hd
    rw [Nat.ofDigitChars_cons] at hlimit ⊢
    have hle := Nat.le_trans (le_ofDigitChars ds _) hlimit
    have htake : (d.isDigit && decide (10 * m + (d.toNat - '0'.toNat) ≤ limit)) = true := by
      rw [hdigit, decide_eq_true hle, Bool.true_and]
    rw [List.cons_append, gather, if_pos htake, gather_digits hrest ds _ hds hlimit]
    rfl

theorem toDigits_eq_cons {n : Nat} (h : 0 < n) : ∃ c cs, Nat.toDigits 10 n = c :: cs ∧ c ≠ '0' := by
  induction n using Nat.strongRecOn with
  | ind n ih =>
    by_cases hlt : n < 10
    · refine ⟨n.digitChar, [], Nat.toDigits_of_lt_base hlt, ?_⟩
      have : ∀ m : Fin 10, 0 < m.val → m.val.digitChar ≠ '0' := by decide
      exact this ⟨n, hlt⟩ h
    · obtain ⟨c, cs, hcs, hc⟩ := ih (n / 10) (by omega) (by omega)
      refine ⟨c, cs ++ [(n % 10).digitChar], ?_, hc⟩
      rw [Nat.toDigits_of_base_le (by decide) (by omega), hcs, List.cons_append]

section Numbers

variable {rest : List Char} (h : Follows rest)

include h

theorem head_of_follows : ∀ c ∈ rest.head?, c.isDigit = false ∧ c ≠ '.' ∧ c ≠ 'e' ∧ c ≠ 'E' := by
  intro c hc
  have := h c hc
  simp only [isSpace, Bool.or_eq_true, beq_iff_eq, List.mem_cons, List.not_mem_nil, or_false,
    or_assoc] at this
  rcases this with rfl | rfl | rfl | rfl | rfl | rfl | rfl <;> decide

theorem afterWhole_end (negative : Bool) (n dropped : Nat) : afterWhole negative n dropped rest =
    if dropped = 0 then .ok (integer negative n, rest) else float negative n dropped rest := by
  have hhead := head_of_follows h
  unfold afterWhole
  split
  · exact absurd rfl (hhead '.' rfl).2.1
  · exact absurd rfl (hhead 'e' rfl).2.2.1
  · exact absurd rfl (hhead 'E' rfl).2.2.2
  · rfl

theorem afterWhole_follows (negative : Bool) (n : Nat) :
    afterWhole negative n 0 rest = .ok (integer negative n, rest) := by
  rw [afterWhole_end h, if_pos rfl]

theorem number_toDigits (negative : Bool) {n : Nat} (hn : n ≤ significandLimit) :
    number negative (Nat.toDigits 10 n ++ rest) = .ok (integer negative n, rest) := by
  have hdigit : ∀ c ∈ rest.head?, c.isDigit = false := fun c hc => (head_of_follows h c hc).1
  rcases Nat.eq_zero_or_pos n with rfl | hpos
  · have hany : rest.head?.any Char.isDigit = false := by
      cases hr : rest.head? with
      | none => rfl
      | some c => exact hdigit c hr
    rw [Nat.toDigits_zero, List.singleton_append, number, hany]
    exact afterWhole_follows h negative 0
  · obtain ⟨c, cs, hcs, hc⟩ := toDigits_eq_cons hpos
    have hall : ∀ d ∈ Nat.toDigits 10 n, d.isDigit = true := fun d hd => Scalar.isDigit_of_mem_toDigits hd
    have hlimit : Nat.ofDigitChars 10 (Nat.toDigits 10 n) 0 ≤ significandLimit := by
      rwa [Nat.ofDigitChars_ten_toDigits]
    have hgather := gather_digits hdigit (Nat.toDigits 10 n) 0 hall hlimit
    have htake : rest.takeWhile Char.isDigit = [] ∧ rest.dropWhile Char.isDigit = rest := by
      cases rest with
      | nil => exact ⟨rfl, rfl⟩
      | cons d rest => simp [hdigit d rfl]
    have hcd : c.isDigit = true := hall c (by rw [hcs]; exact List.mem_cons_self)
    rw [Nat.ofDigitChars_ten_toDigits] at hgather
    rw [hcs, List.cons_append] at hgather ⊢
    unfold number
    split
    · simp_all
    · rename_i heq
      exact absurd (List.cons.inj heq).1 hc
    · rename_i heq
      obtain ⟨rfl, -⟩ := List.cons.inj heq
      simp only [hcd, Bool.not_true, Bool.false_eq_true, if_false, hgather, htake.1, htake.2, List.length_nil]
      exact afterWhole_follows h negative n

end Numbers

theorem integer_toInt (i : Int64) : integer (decide (i.toInt < 0)) i.toInt.natAbs = .integer i := by
  have hzero : (decide (i.toInt < 0) && i.toInt.natAbs == 0) = false := by
    by_cases hi : i.toInt < 0
    · simp only [hi, decide_true, Bool.true_and, beq_eq_false_iff_ne]
      omega
    · simp [hi]
  rw [integer, hzero, Double.signed_natAbs, int64?_toInt]
  rfl

/-! ## Scalars -/

theorem skipSpace_cons {c : Char} (h : isSpace c = false) (cs : List Char) : skipSpace (c :: cs) = c :: cs :=
  List.dropWhile_cons_of_neg (by simp [h])

/-- **A text that is read as a value**, whatever may stand behind it. -/
def Reads (depth : Nat) (text : List Char) (v : Value) : Prop :=
  ∀ rest, Follows rest → value depth (text ++ rest) = .ok (v, rest)

theorem ne_of_isDigit {c d : Char} (hc : c.isDigit = true) (hd : d.isDigit = false) : c ≠ d := by
  rintro rfl
  rw [hd] at hc
  cases hc

theorem value_digit {depth : Nat} {c : Char} (hc : c.isDigit = true) (cs : List Char) :
    value depth (c :: cs) = (number false (c :: cs)).bind fun r => .ok (.number r.1, r.2) := by
  have hne : ∀ d : Char, d.isDigit = false → c ≠ d := fun d => ne_of_isDigit hc
  have hspace : isSpace c = false := by simp [isSpace, hne]
  -- none of the characters that begin another value is a digit
  simp [value, skipSpace_cons hspace, hne, hc]
  rfl

theorem reads_integer (depth : Nat) (i : Int64) : Reads depth (Number.integerText i.toInt) (.integer i) := by
  intro rest hrest
  have hfits : i.toInt.natAbs ≤ significandLimit := by
    have hlow := i.minValue_le_toInt
    have hhigh := i.toInt_le
    have hmin : Int64.minValue.toInt = -2 ^ 63 := by decide
    have hmax : Int64.maxValue.toInt = 2 ^ 63 - 1 := by decide
    rw [hmin] at hlow
    rw [hmax] at hhigh
    have hlimit : significandLimit = 2 ^ 64 - 1 := rfl
    omega
  obtain ⟨sign, hsign, ht⟩ := Scalar.integerText_eq i.toInt
  have hnumber := number_toDigits hrest (decide (i.toInt < 0)) hfits
  rw [integer_toInt] at hnumber
  rw [ht]
  rcases hsign with ⟨rfl, hi⟩ | ⟨rfl, hi⟩
  · rw [decide_eq_true hi] at hnumber
    simp [value, skipSpace_cons, isSpace, hnumber, Value.number, Value.integer]
  · rw [decide_eq_false (Int.not_lt.2 hi)] at hnumber
    obtain ⟨c, cs, hcs⟩ := List.exists_cons_of_ne_nil (Nat.toDigits_ne_nil (b := 10) (n := i.toInt.natAbs))
    have hc : c.isDigit = true := Scalar.isDigit_of_mem_toDigits (n := i.toInt.natAbs) (by simp [hcs])
    rw [hcs, List.cons_append] at hnumber
    rw [hcs, List.nil_append, List.cons_append]
    rw [value_digit hc, hnumber]
    rfl

/-- **The text of a scalar that is no float is read as that scalar.** -/
theorem reads_scalar (depth : Nat) {x : Scalar} (hx : (Value.scalar x).NotFloat) :
    Reads depth (scalarText x) (.scalar x) := by
  cases x with
  | null => simp [Reads, scalarText, value, skipSpace_cons, isSpace, word]
  | boolean b => cases b <;> simp [Reads, scalarText, value, skipSpace_cons, isSpace, word]
  | number n =>
    cases n with
    | integer i => exact reads_integer depth i
    | float f => exact absurd hx id
  | string s =>
    intro rest _
    have hstring := string_written s rest
    simp [scalarText, stringText, value, skipSpace_cons, isSpace, hstring,
      Value.string]

end DocQuery.Json
