import DocQuery.Proofs.Text.Trimming
import DocQuery.Scalar.Bare
/-!
# Scalars compared with themselves

A number that is not a not-a-number is equal to itself and neither less nor greater, and no text is typed as a
not-a-number: decimals are rounded to finite doubles and infinities only.
-/
namespace DocQuery

namespace Double

variable {x : Double}

theorem exists_place (h : x ≠ .nan) : ∃ p, x.place? = some p := by
  cases x with
  | nan => exact absurd rfl h
  | infinite n => exact ⟨_, rfl⟩
  | finite n r => exact ⟨_, rfl⟩

theorem eqv_self (h : x ≠ .nan) : x.eqv x = true := by
  obtain ⟨p, hp⟩ := exists_place h
  simp [eqv, hp]

theorem le_self (h : x ≠ .nan) : x.le x = true := by
  obtain ⟨p, hp⟩ := exists_place h
  simp [le, hp]

theorem lt_self (x : Double) : x.lt x = false := by
  unfold lt
  cases x.place? <;> simp

theorem ofRatio_ne_nan (negative : Bool) (num den : Nat) : ofRatio negative num den ≠ .nan := by
  unfold ofRatio ofRank
  split <;> nofun

theorem ofDecimal_ne_nan (negative : Bool) (d : Decimal) : ofDecimal negative d ≠ .nan := by
  unfold ofDecimal
  split
  · nofun
  split
  · nofun
  split
  · nofun
  · exact ofRatio_ne_nan _ _ _

end Double

namespace Number

variable {n : Number}

theorem eqv_self (h : n ≠ .float .nan) : n.eqv n = true := by
  cases n with
  | integer i => simp [eqv]
  | float x => exact Double.eqv_self fun hx => h (congrArg float hx)

theorem le_self (h : n ≠ .float .nan) : n.le n = true := by
  cases n with
  | integer i => simp [le]
  | float x => exact Double.le_self fun hx => h (congrArg float hx)

theorem lt_self (n : Number) : n.lt n = false := by
  cases n with
  | integer i => simp [lt]
  | float x => exact Double.lt_self x

end Number

namespace Scalar

variable {x : Scalar}

/-- **A scalar equals itself**, unless it is a not-a-number. -/
theorem eqv_self (h : x ≠ .number (.float .nan)) : x.eqv x = true := by
  cases x with
  | null => rfl
  | boolean b => simp [eqv]
  | number n => exact Number.eqv_self fun hn => h (by rw [hn])
  | string s => simp [eqv]

theorem eqv_cases {a b : Scalar} (h : a.eqv b = true) :
    a = b ∨ ∃ m n, a = .number m ∧ b = .number n ∧ m.eqv n = true := by
  cases a <;> cases b <;> simp_all [eqv]

theorem number?_ne_nan (cs : List Char) : number? cs ≠ some (.float .nan) := by
  have hfloat : ∀ (negative : Bool) (d : Option Decimal),
      d.map (fun d => Number.float (.ofDecimal negative d)) ≠ some (.float .nan) := by
    intro negative d h
    obtain ⟨e, -, he⟩ := Option.map_eq_some_iff.1 h
    exact Double.ofDecimal_ne_nan negative e (Number.float.inj he)
  unfold number?
  dsimp only
  split
  · split
    · nofun
    · exact hfloat _ _
  · exact hfloat _ _

/-- **No text is typed as a not-a-number.** -/
theorem ofText_ne_nan (cs : List Char) : ofText cs ≠ .number (.float .nan) := by
  have hword : word? (Text.trim cs) ≠ some (.number (.float .nan)) := by
    unfold word?
    dsimp only
    split
    · nofun
    split
    · nofun
    split <;> nofun
  unfold ofText ofTrimmed
  split
  · nofun
  split
  · rename_i w hw
    rintro rfl
    exact hword hw
  split
  · rename_i n hn
    rintro ⟨⟩
    exact number?_ne_nan _ hn
  · nofun

theorem ofText_trim (cs : List Char) : ofText (Text.trim cs) = ofText cs := by
  rw [ofText, Text.trim_trim, ofText]

end Scalar
end DocQuery
