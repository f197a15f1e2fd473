import DocQuery.Proofs.Text.Lines
import DocQuery.Proofs.Value.Scalars
import DocQuery.Proofs.Yaml.Comments
import DocQuery.Proofs.Yaml.Resumption
import DocQuery.Proofs.Yaml.Sources
/-!
# Pieces of a text

Reading a block document cuts its text: into lines, into what stands in front of a comment, into marks.  What is typed as
a scalar in the end is a piece of the text (`everywhere_piece`), unless it is a null for a value that is missing.
-/
namespace DocQuery

namespace Yaml

variable {cs raw key value : List Char} {line : Line}

/-! ## Lines and entries -/

theorem LineReading.infix_of_content (h : LineReading.ofText raw = .content line) : line.content <:+: raw := by
  unfold LineReading.ofText at h
  dsimp only at h
  split at h
  · cases h
  rename_i c cs hcs
  split at h
  · cases h
  cases h
  rw [← hcs, uncommented_eq_kept]
  exact (List.dropWhile_suffix _).isInfix.trans ((Text.prefix_trimEnd _).trans (Scan.prefix_kept raw _)).isInfix

theorem exists_of_map_key {split : Option (List Char × List Char)} {f : List Char × List Char → List Char × List Char}
    (h : split.map f = some (key, value)) (hf : ∀ p, (f p).2 = p.2) : ∃ key', split = some (key', value) := by
  obtain ⟨p, hsplit, he⟩ := Option.map_eq_some_iff.1 h
  have hvalue : p.2 = value := by rw [← hf p, he]
  exact ⟨p.1, by rw [hsplit, ← hvalue]⟩

theorem splitEntry_suffix (h : splitEntry cs = some (key, value)) : value <:+ cs := by
  fun_induction splitEntry cs generalizing key value with
  | case1 => cases h
  | case2 =>
    cases h
    exact List.nil_suffix
  | case3 cs =>
    cases h
    exact List.suffix_cons _ _
  | case4 c cs _ _ ih =>
    obtain ⟨key', hsplit⟩ := exists_of_map_key h fun _ => rfl
    exact (ih hsplit).trans (List.suffix_cons _ _)

theorem splitEntryDouble_suffix (h : splitEntryDouble cs = some (key, value)) : value <:+ cs := by
  fun_induction splitEntryDouble cs generalizing key value with
  | case1 => cases h
  | case2 c cs ih =>
    obtain ⟨key', hsplit⟩ := exists_of_map_key h fun _ => rfl
    exact (ih hsplit).trans ((List.suffix_cons _ _).trans (List.suffix_cons _ _))
  | case3 cs =>
    obtain ⟨key', hsplit⟩ := exists_of_map_key h fun _ => rfl
    exact (splitEntry_suffix hsplit).trans (List.suffix_cons _ _)
  | case4 c cs _ _ ih =>
    obtain ⟨key', hsplit⟩ := exists_of_map_key h fun _ => rfl
    exact (ih hsplit).trans (List.suffix_cons _ _)

theorem splitEntrySingle_suffix (h : splitEntrySingle cs = some (key, value)) : value <:+ cs := by
  fun_induction splitEntrySingle cs generalizing key value with
  | case1 => cases h
  | case2 cs ih =>
    obtain ⟨key', hsplit⟩ := exists_of_map_key h fun _ => rfl
    exact (ih hsplit).trans ((List.suffix_cons _ _).trans (List.suffix_cons _ _))
  | case3 cs _ =>
    obtain ⟨key', hsplit⟩ := exists_of_map_key h fun _ => rfl
    exact (splitEntry_suffix hsplit).trans (List.suffix_cons _ _)
  | case4 c cs _ _ ih =>
    obtain ⟨key', hsplit⟩ := exists_of_map_key h fun _ => rfl
    exact (ih hsplit).trans (List.suffix_cons _ _)

theorem infix_of_entryParts? (h : entryParts? cs = some (key, value)) : value <:+: cs := by
  unfold entryParts? at h
  dsimp only at h
  obtain ⟨⟨key', behind⟩, hsplit, he⟩ := Option.map_eq_some_iff.1 h
  cases he
  have hbehind : behind <:+ cs := by
    split at hsplit
    · obtain ⟨key'', hinner⟩ := exists_of_map_key hsplit fun _ => rfl
      exact (splitEntryDouble_suffix hinner).trans (List.suffix_cons _ _)
    · obtain ⟨key'', hinner⟩ := exists_of_map_key hsplit fun _ => rfl
      exact (splitEntrySingle_suffix hinner).trans (List.suffix_cons _ _)
    · exact splitEntry_suffix hsplit
  exact (Text.infix_trim _).trans hbehind.isInfix

/-! ## Marks -/

def Mark.scalar? : Mark → Option (List Char)
  | .item => none
  | .entry _ value => some value
  | .text cs => some cs

theorem Mark.infix_of_scalar? {c : List Char} (h : (Mark.ofContent cs).scalar? = some c) : c <:+: cs := by
  unfold Mark.ofContent at h
  split at h
  · rename_i hentry
    cases h
    exact infix_of_entryParts? hentry
  · cases h
    exact List.infix_rfl

theorem infix_of_mem_marks {column : Nat} {p : Nat × Mark} {c : List Char} (hp : p ∈ marks column cs)
    (hc : p.2.scalar? = some c) : c <:+: cs := by
  fun_induction marks column cs with
  | case1 => cases hp
  | case2 =>
    rw [List.mem_singleton.1 hp] at hc
    cases hc
  | case3 column cs ih =>
    rcases List.mem_cons.1 hp with rfl | hp
    · cases hc
    · exact (ih hp).trans ((List.suffix_cons _ _).trans (List.suffix_cons _ _)).isInfix
  | case4 column cs ih => exact (ih hp).trans (List.suffix_cons _ _).isInfix
  | case5 =>
    rw [List.mem_singleton.1 hp] at hc
    exact Mark.infix_of_scalar? hc

theorem exists_infix_of_content {number : Nat} {started : Bool} {ls : List (List Char)} {m : Placed} {c : List Char}
    (hm : m ∈ (Reading.content number started ls).1) (hc : m.mark.scalar? = some c) : ∃ raw ∈ ls, c <:+: raw := by
  induction ls generalizing number started with
  | nil => cases hm
  | cons raw ls ih =>
    have hbehind : ∀ {started : Bool}, m ∈ (Reading.content (number + 1) started ls).1 →
        ∃ raw' ∈ raw :: ls, c <:+: raw' := by
      intro started hm
      obtain ⟨raw', hmem, hinfix⟩ := ih hm
      exact ⟨raw', List.mem_cons_of_mem raw hmem, hinfix⟩
    unfold Reading.content at hm
    split at hm
    · exact hbehind hm
    · cases hm
    rename_i line hline
    split at hm
    · exact hbehind hm
    split at hm
    · split at hm
      · cases hm
      · exact hbehind hm
    rcases List.mem_append.1 hm with hm | hm
    · obtain ⟨p, hp, rfl⟩ := List.mem_map.1 hm
      exact ⟨raw, List.mem_cons_self, (infix_of_mem_marks hp hc).trans (LineReading.infix_of_content hline)⟩
    · exact hbehind hm

/-! ## Documents -/

def Portion.AllScalars (P : Scalar → Prop) : Portion → Prop
  | .value _ source => source.AllScalars P
  | .entries _ pairs => ∀ p ∈ pairs, p.2.AllScalars P
  | .items _ sources => ∀ s ∈ sources, s.AllScalars P

variable {portion : Portion} {ms rest : List Placed}

theorem Spells.suffix (h : Spells portion ms rest) : rest <:+ ms := by
  induction h with
  | nothing => exact List.suffix_rfl
  | text h ms => exact List.suffix_cons _ _
  | sequence h hitems ih => exact ih
  | mapping h hentries ih => exact ih
  | noItem h => exact List.suffix_rfl
  | item line hvalue hmore ihvalue ihmore => exact (ihmore.trans ihvalue).trans (List.suffix_cons _ _)
  | noEntry h => exact List.suffix_rfl
  | inline line hkey htext hmore ih => exact ih.trans (List.suffix_cons _ _)
  | following line hkey hvalue hmore ihvalue ihmore => exact (ihmore.trans ihvalue).trans (List.suffix_cons _ _)

theorem Spells.allScalars {P : Scalar → Prop} (hnull : P .null) (h : Spells portion ms rest)
    (hms : ∀ m ∈ ms, ∀ cs, m.mark.scalar? = some cs → P (.ofText cs)) : portion.AllScalars P := by
  induction h with
  | nothing => exact .scalar hnull
  | text h ms => exact .scalar (hms _ List.mem_cons_self _ rfl)
  | sequence h hitems ih => exact .array (ih hms)
  | mapping h hentries ih => exact .object (ih hms)
  | noItem h => nofun
  | item line hvalue hmore ihvalue ihmore =>
    have hbehind := fun m hm => hms m (List.mem_cons_of_mem _ hm)
    exact List.forall_mem_cons.2 ⟨ihvalue hbehind, ihmore fun m hm => hbehind m (hvalue.suffix.subset hm)⟩
  | noEntry h => nofun
  | inline line hkey htext hmore ih =>
    have hbehind := fun m hm => hms m (List.mem_cons_of_mem _ hm)
    exact List.forall_mem_cons.2 ⟨.scalar (hms _ List.mem_cons_self _ rfl), ih hbehind⟩
  | following line hkey hvalue hmore ihvalue ihmore =>
    have hbehind := fun m hm => hms m (List.mem_cons_of_mem _ hm)
    exact List.forall_mem_cons.2 ⟨ihvalue hbehind, ihmore fun m hm => hbehind m (hvalue.suffix.subset hm)⟩

end Yaml

/-- **A scalar of a block document is a piece of its text**, or a null for a value that is missing. -/
theorem Yaml.everywhere_piece {text : String} {v : Value} (h : decodeYaml text = .ok v) :
    v.Everywhere (Value.IfScalar fun x => x = .null ∨ ∃ cs, cs <:+: text.toList ∧ x = .ofText cs) := by
  have hdocument := decodeYaml_eq_ok.1 h
  unfold Reading.document at hdocument
  obtain ⟨hread, -⟩ := Reading.verdict_eq_ok hdocument
  unfold Reading.root at hread
  split at hread
  · cases hread
    exact Value.everywhere_object.2 ⟨trivial, nofun⟩
  · obtain ⟨source, hvalue, hsource⟩ := exists_spells_value (fun _ => true) _
    rw [hread] at hvalue
    have hv : v = source.value := hvalue
    rw [hv]
    refine Source.AllScalars.everywhere_ifScalar (hsource.allScalars (.inl rfl) fun m hm cs hcs => .inr ⟨cs, ?_, rfl⟩)
    obtain ⟨raw, hraw, hinfix⟩ := exists_infix_of_content hm hcs
    exact hinfix.trans (Text.infix_of_mem_lines hraw)

end DocQuery
