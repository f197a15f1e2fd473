import DocQuery.Proofs.Double.Overflow
import DocQuery.Proofs.Json.Sources
import DocQuery.Proofs.Number.Text
import DocQuery.Proofs.Value.Scalars
/-!
# Numbers that are read from JSON text

The reader of JSON numbers refuses what is out of range, and what it does not refuse it scales down or rounds from at
most sixty-four bits.  So every number that it reads is finite (`number_isFinite`).
-/
namespace DocQuery

/-- **A scalar that is no number, or a finite one.** -/
def Scalar.FiniteNumber (x : Scalar) : Prop :=
  ∀ n, x = .number n → n.isFinite = true

namespace Json

variable {negative : Bool} {n significand dropped limit : Nat} {exponent e : Int} {x y : Double} {k : Number}
  {cs rest : List Char}

theorem isFinite_neg (x : Double) : x.neg.isFinite = x.isFinite := by
  cases x <;> rfl

theorem gather_le {m taken : Nat} (hn : n ≤ limit) (h : gather limit n cs = (m, taken, rest)) : m ≤ limit := by
  induction cs generalizing n taken with
  | nil =>
    cases h
    exact hn
  | cons c cs ih =>
    rw [gather] at h
    split at h
    · rename_i hstep
      rw [Bool.and_eq_true, decide_eq_true_eq] at hstep
      obtain ⟨m', taken', rest', hgather⟩ : ∃ m' taken' rest',
        gather limit (10 * n + (c.toNat - '0'.toNat)) cs = (m', taken', rest') := ⟨_, _, _, rfl⟩
      rw [hgather] at h
      cases h
      exact ih hstep.2 hgather
    · cases h
      exact hn

theorem isFinite_ofRatio_significand (hn : n ≤ significandLimit) : (Double.ofRatio negative n 1).isFinite = true := by
  rw [Double.ofRatio_isFinite_iff Nat.one_pos, Nat.mul_one]
  exact Nat.lt_of_le_of_lt hn (by decide +kernel)

theorem isFinite_div_powerOfTen (hx : x.isFinite = true) (p : Nat) : (x.div (powerOfTen p)).isFinite = true :=
  Double.isFinite_div_ofNat hx (Nat.pow_pos (Nat.succ_pos 9))

theorem isFinite_of_scaled? {steps : Nat} (hx : x.isFinite = true) (h : scaled? steps x e = some y) :
    y.isFinite = true := by
  fun_induction scaled? steps x e with
  | case1 steps x e hsmall hup product hproduct =>
    rw [← Option.some.inj h]
    exact hproduct
  | case2 => cases h
  | case3 steps x e hsmall hdown =>
    cases h
    exact isFinite_div_powerOfTen hx _
  | case4 =>
    cases h
    exact hx
  | case5 => cases h
  | case6 =>
    cases h
    rfl
  | case7 x e hlarge hzero hdown steps ih =>
    exact ih (isFinite_div_powerOfTen hx 308) h

theorem float_isFinite (hn : n ≤ significandLimit) (h : float negative n exponent cs = .ok (k, rest)) :
    k.isFinite = true := by
  unfold float at h
  split at h
  · rename_i x hx
    cases h
    have hfinite := isFinite_of_scaled? (isFinite_ofRatio_significand hn) hx
    cases negative with
    | false => exact hfinite
    | true => exact (isFinite_neg x).trans hfinite
  · cases h

theorem integer_isFinite (hn : n ≤ significandLimit) : (integer negative n).isFinite = true := by
  unfold integer
  split
  · rfl
  split
  · rfl
  · exact isFinite_ofRatio_significand hn

theorem exponentPart_isFinite (hn : n ≤ significandLimit) (h : exponentPart negative n exponent cs = .ok (k, rest)) :
    k.isFinite = true := by
  unfold exponentPart at h
  split at h
  split at h
  · cases h
  split at h
  · cases h
  dsimp only at h
  split at h
  · split at h
    · cases h
    · cases h
      rfl
  · exact float_isFinite hn h

theorem exponentOrEnd_isFinite (hn : n ≤ significandLimit) (h : exponentOrEnd negative n exponent cs = .ok (k, rest)) :
    k.isFinite = true := by
  unfold exponentOrEnd at h
  split at h
  · exact exponentPart_isFinite hn h
  · exact exponentPart_isFinite hn h
  · exact float_isFinite hn h

theorem fractionPart_isFinite (hn : n ≤ significandLimit) (h : fractionPart negative n exponent cs = .ok (k, rest)) :
    k.isFinite = true := by
  unfold fractionPart at h
  split at h
  · cases h
  split at h
  · cases h
  split at h
  rename_i hgather
  exact exponentOrEnd_isFinite (gather_le hn hgather) h

theorem afterWhole_isFinite (hn : n ≤ significandLimit) (h : afterWhole negative n dropped cs = .ok (k, rest)) :
    k.isFinite = true := by
  unfold afterWhole at h
  split at h
  · exact fractionPart_isFinite hn h
  · exact exponentPart_isFinite hn h
  · exact exponentPart_isFinite hn h
  split at h
  · cases h
    exact integer_isFinite hn
  · exact float_isFinite hn h

theorem number_isFinite (h : number negative cs = .ok (k, rest)) : k.isFinite = true := by
  unfold number at h
  split at h
  · cases h
  · split at h
    · cases h
    · exact afterWhole_isFinite (Nat.zero_le _) h
  split at h
  · cases h
  split at h
  rename_i hgather
  exact afterWhole_isFinite (gather_le (Nat.zero_le _) hgather) h

theorem isFinite_of_value_zero (h : value 0 cs = .ok (.scalar (.number k), rest)) : k.isFinite = true := by
  unfold value at h
  split at h
  · cases h
  · cases eq_scalar_of_word h
  · cases eq_scalar_of_word h
  · cases eq_scalar_of_word h
  · obtain ⟨⟨s, mid⟩, -, h⟩ := bind_eq_ok h
    cases h
  · obtain ⟨⟨n, mid⟩, hn, h⟩ := bind_eq_ok h
    cases h
    exact number_isFinite hn
  · cases h
  · cases h
  · split at h
    · obtain ⟨⟨n, mid⟩, hn, h⟩ := bind_eq_ok h
      cases h
      exact number_isFinite hn
    · cases h

/-! ## Documents -/

def Portion.AllScalars (P : Scalar → Prop) : Portion → Prop
  | .value source => source.AllScalars P
  | .items _ sources => ∀ s ∈ sources, s.AllScalars P
  | .members _ pairs => ∀ p ∈ pairs, p.2.AllScalars P

/-- **What holds of each scalar that can be read** holds of all that a text spells. -/
theorem Spells.allScalars {P : Scalar → Prop} (hP : ∀ {cs rest x}, value 0 cs = .ok (.scalar x, rest) → P x)
    {portion : Portion} (h : Spells portion cs rest) : portion.AllScalars P := by
  induction h with
  | scalar h => exact .scalar (hP h)
  | array hopen hitems ih => exact .array ih
  | object hopen hmembers ih => exact .object ih
  | endItems => nofun
  | item hcomma hvalue hmore ihvalue ihmore => exact List.forall_mem_cons.2 ⟨ihvalue, ihmore⟩
  | endMembers => nofun
  | member hcomma hquote hkey hcolon hvalue hmore ihvalue ihmore => exact List.forall_mem_cons.2 ⟨ihvalue, ihmore⟩

/-- **All numbers of a JSON text are finite.** -/
theorem document_finite {v : Value} (h : document cs = .ok v) :
    v.Everywhere (Value.IfScalar Scalar.FiniteNumber) := by
  obtain ⟨⟨w, rest⟩, hvalue, hrest⟩ := bind_eq_ok h
  obtain ⟨source, hsource, rfl⟩ := exists_spells hvalue
  dsimp only at hrest
  split at hrest
  · cases hrest
    refine Source.AllScalars.everywhere_ifScalar (hsource.allScalars ?_)
    rintro cs rest x hx n rfl
    exact isFinite_of_value_zero hx
  · cases hrest

end Json
end DocQuery
