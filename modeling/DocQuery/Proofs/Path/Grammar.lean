import DocQuery.Path.Parser
import DocQuery.Proofs.Text.Trimming
import Mathlib.Algebra.Group.Nat.Defs
/-!
# The grammar of paths

A path is written as parts with dots between them.  A part is a name with any number of brackets behind it, and the
first part may be brackets alone (`Spells`).  The reader goes from left to right, so the grammar is first brought into a
form that does so too (`Rest`); where reading stands, what is still accepted is then a condition on the text ahead
(`Accepts`), and it is the one under which reading succeeds (`steps_eq_ok_iff`).
-/
namespace DocQuery.Path

/-! ## The grammar -/

/-- **The name of a key**: not empty, and without the characters that end it. -/
def IsName (name : List Char) : Prop :=
  name ≠ [] ∧ ∀ c ∈ name, c ∉ ['.', '[', ']']

/-- **What stands between brackets, and the segment it means**: a star or a number of at most sixty-four bits in decimal
digits, with blanks around it or without. -/
inductive Means : List Char → Segment → Prop
  | wildcard {content : List Char} (ht : Text.TrimsTo content ['*']) : Means content .wildcard
  | index {content digits : List Char} (ht : Text.TrimsTo content digits) (hne : digits ≠ [])
    (hd : ∀ d ∈ digits, d.isDigit = true) (hmax : Nat.ofDigitChars 10 digits 0 < 2 ^ 64) :
    Means content (.index (Nat.ofDigitChars 10 digits 0))

inductive Brackets : List Char → List Segment → Prop
  | nil : Brackets [] []
  | cons {content t : List Char} {s : Segment} {ss : List Segment} (hc : ']' ∉ content) (h : Means content s)
    (h' : Brackets t ss) : Brackets ('[' :: (content ++ ']' :: t)) (s :: ss)

inductive Part : List Char → List Segment → Prop
  | mk {name t : List Char} {ss : List Segment} (hname : IsName name) (h : Brackets t ss) :
    Part (name ++ t) (.key (String.ofList name) :: ss)

inductive Further : List Char → List Segment → Prop
  | nil : Further [] []
  | cons {t t' : List Char} {ss ss' : List Segment} (h : Part t ss) (h' : Further t' ss') :
    Further ('.' :: (t ++ t')) (ss ++ ss')

/-- **The texts of a path**, without blanks around them. -/
inductive Spells : List Char → Path → Prop
  | empty : Spells [] []
  | part {t t' : List Char} {ss ss' : List Segment} (h : Part t ss) (h' : Further t' ss') : Spells (t ++ t') (ss ++ ss')
  | brackets {t t' : List Char} {ss ss' : List Segment} (h : Brackets t ss) (hne : ss ≠ []) (h' : Further t' ss') :
    Spells (t ++ t') (ss ++ ss')

/-! ## From left to right -/

/-- **What may stand behind a part**, read from left to right: brackets, and names behind dots. -/
inductive Rest : List Char → List Segment → Prop
  | nil : Rest [] []
  | bracket {content t : List Char} {s : Segment} {ss : List Segment} (hc : ']' ∉ content) (h : Means content s)
    (h' : Rest t ss) : Rest ('[' :: (content ++ ']' :: t)) (s :: ss)
  | name {name t : List Char} {ss : List Segment} (hname : IsName name) (h : Rest t ss) :
    Rest ('.' :: (name ++ t)) (.key (String.ofList name) :: ss)

theorem Brackets.rest {t t' : List Char} {ss ss' : List Segment} (h : Brackets t ss) (h' : Rest t' ss') :
    Rest (t ++ t') (ss ++ ss') := by
  induction h with
  | nil => exact h'
  | cons hc hm _ ih =>
    rw [List.cons_append, List.cons_append, List.append_assoc, List.cons_append]
    exact .bracket hc hm ih

theorem Further.rest {t : List Char} {ss : List Segment} (h : Further t ss) : Rest t ss := by
  induction h with
  | nil => exact .nil
  | cons hp _ ih =>
    cases hp with
    | mk hname hb =>
      rw [List.append_assoc, List.cons_append]
      exact .name hname (hb.rest ih)

theorem Rest.split {t : List Char} {ss : List Segment} (h : Rest t ss) :
    ∃ b f bs fs, t = b ++ f ∧ ss = bs ++ fs ∧ Brackets b bs ∧ Further f fs := by
  induction h with
  | nil => exact ⟨[], [], [], [], rfl, rfl, .nil, .nil⟩
  | bracket hc hm _ ih =>
    obtain ⟨b, f, bs, fs, rfl, rfl, hb, hf⟩ := ih
    exact ⟨_, f, _, fs, by simp, rfl, .cons hc hm hb, hf⟩
  | name hname _ ih =>
    obtain ⟨b, f, bs, fs, rfl, rfl, hb, hf⟩ := ih
    exact ⟨[], _, [], _, by simp, rfl, .nil, .cons (.mk hname hb) hf⟩

/-- **A path from left to right**: it is what may stand behind a part, but without the dot in front of a name. -/
theorem spells_iff {t : List Char} {path : Path} :
    Spells t path ↔ Rest ('.' :: t) path ∨ t.head? ≠ some '.' ∧ Rest t path := by
  constructor
  · intro h
    cases h with
    | empty => exact .inr ⟨by simp, .nil⟩
    | part hp hf => exact .inl (Further.cons hp hf).rest
    | brackets hb hne hf =>
      refine .inr ⟨?_, hb.rest hf.rest⟩
      cases hb with
      | nil => exact absurd rfl hne
      | cons => simp
  · rintro (h | ⟨hdot, h⟩)
    · obtain ⟨b, f, bs, fs, ht, rfl, hb, hf⟩ := h.split
      cases hb with
      | cons => simp at ht
      | nil =>
        cases hf with
        | nil => simp at ht
        | cons hp hf =>
          obtain ⟨-, rfl⟩ := List.cons.inj ht
          rw [List.nil_append]
          exact .part hp hf
    · obtain ⟨b, f, bs, fs, rfl, rfl, hb, hf⟩ := h.split
      cases hb with
      | cons hc hm hb => exact .brackets (.cons hc hm hb) (List.cons_ne_nil _ _) hf
      | nil =>
        cases hf with
        | nil => exact .empty
        | cons => simp at hdot

@[simp] theorem rest_nil {ss : List Segment} : Rest [] ss ↔ ss = [] :=
  ⟨fun h => by cases h; rfl, fun h => h ▸ .nil⟩

theorem rest_dot {t : List Char} {ss : List Segment} : Rest ('.' :: t) ss ↔
    ∃ name rest ss', t = name ++ rest ∧ IsName name ∧ Rest rest ss' ∧ ss = .key (String.ofList name) :: ss' := by
  constructor
  · intro h
    cases h with
    | name hname h => exact ⟨_, _, _, rfl, hname, h, rfl⟩
  · rintro ⟨name, rest, ss', rfl, hname, h, rfl⟩
    exact .name hname h

theorem not_rest_dot_nil {ss : List Segment} : ¬Rest ['.'] ss := by
  intro h
  obtain ⟨name, rest, ss', ht, hname, -⟩ := rest_dot.1 h
  exact hname.1 (List.append_eq_nil_iff.1 ht.symm).1

theorem not_mem_of_rest_dot {c : Char} {t : List Char} {ss : List Segment} (h : Rest ('.' :: c :: t) ss) :
    c ∉ ['.', '[', ']'] := by
  obtain ⟨name, rest, ss', ht, hname, -⟩ := rest_dot.1 h
  cases name with
  | nil => exact absurd rfl hname.1
  | cons d name =>
    obtain ⟨rfl, -⟩ := List.cons.inj ht
    exact hname.2 c List.mem_cons_self

theorem rest_bracket {t : List Char} {ss : List Segment} : Rest ('[' :: t) ss ↔
    ∃ content rest s ss', t = content ++ ']' :: rest ∧ ']' ∉ content ∧ Means content s ∧ Rest rest ss' ∧
      ss = s :: ss' := by
  constructor
  · intro h
    cases h with
    | bracket hc hm h => exact ⟨_, _, _, _, rfl, hc, hm, h, rfl⟩
  · rintro ⟨content, rest, s, ss', rfl, hc, hm, h, rfl⟩
    exact .bracket hc hm h

theorem Rest.head {c : Char} {t : List Char} {ss : List Segment} (h : Rest (c :: t) ss) : c = '.' ∨ c = '[' := by
  cases h with
  | bracket => exact .inr rfl
  | name => exact .inl rfl

/-! ## Brackets -/

theorem bracketStep_eq_ok_iff {content : List Char} {s : Segment} :
    bracketStep content = .ok s ↔ Means content s := by
  have htrim := Text.trimsTo_trim content
  constructor
  · intro h
    unfold bracketStep at h
    simp only at h
    split at h
    · rename_i hstar
      cases h
      exact .wildcard (hstar ▸ htrim)
    · split at h
      · cases h
      · rename_i hdigits
        simp only [Bool.or_eq_true, List.isEmpty_iff, Bool.not_eq_true', not_or, Bool.not_eq_false] at hdigits
        split at h
        · rename_i hlt
          cases h
          exact .index htrim hdigits.1 (List.all_eq_true.1 hdigits.2) hlt
        · cases h
  · intro h
    cases h with
    | wildcard ht => rw [bracketStep, Text.trimsTo_iff.1 ht, if_pos rfl]
    | @index digits ht hne hd hmax =>
      have hstar : digits ≠ ['*'] := by
        rintro rfl
        exact absurd (hd '*' List.mem_cons_self) (by decide)
      have hall : digits.all Char.isDigit = true := List.all_eq_true.2 hd
      have hlt : Nat.ofDigitChars 10 digits 0 < indexLimit := hmax
      simp [bracketStep, Text.trimsTo_iff.1 ht, hstar, hne, hall, hlt]

/-! ## What is accepted from a place on -/

/-- What is still accepted where reading stands, and the segments it gives. -/
def Accepts (first : Bool) : Phase → List Char → List Segment → Prop
  | .start, t, ss => Rest ('.' :: t) ss ∨ first = true ∧ t.head? = some '[' ∧ Rest t ss
  | .name read, t, ss => ∃ more rest ss', t = more ++ rest ∧ (∀ c ∈ more, c ∉ ['.', '[', ']']) ∧ Rest rest ss' ∧
    ss = .key (String.ofList (read ++ more)) :: ss'
  | .bracket read, t, ss => ∃ more rest s ss', t = more ++ ']' :: rest ∧ ']' ∉ more ∧ Means (read ++ more) s ∧
    Rest rest ss' ∧ ss = s :: ss'
  | .closed, t, ss => Rest t ss

section Accepts

variable {first : Bool} {c : Char} {read t : List Char} {ss : List Segment}

theorem accepts_start_some : Accepts false .start t ss ↔ Rest ('.' :: t) ss := by
  simp [Accepts]

theorem accepts_bracket_start : Accepts first (.bracket []) t ss ↔ Rest ('[' :: t) ss :=
  rest_bracket.symm

theorem not_accepts_start_nil : ¬Accepts first .start [] ss := by
  rintro (h | ⟨-, h, -⟩)
  · exact not_rest_dot_nil h
  · cases h

theorem accepts_start_bracket : Accepts true .start ('[' :: t) ss ↔ Accepts true (.bracket []) t ss := by
  have hdot : ¬Rest ('.' :: '[' :: t) ss := fun h => not_mem_of_rest_dot h (by simp)
  rw [accepts_bracket_start]
  simp [Accepts, hdot]

theorem not_accepts_start_of_mem (hc : c ∈ ['.', '[', ']']) (hfirst : c = '[' → first = false) :
    ¬Accepts first .start (c :: t) ss := by
  rintro (h | ⟨hf, hb, -⟩)
  · exact not_mem_of_rest_dot h hc
  · rw [hfirst (by simpa using hb)] at hf
    cases hf

theorem accepts_start_cons (hc : c ∉ ['.', '[', ']']) :
    Accepts first .start (c :: t) ss ↔ Accepts first (.name [c]) t ss := by
  constructor
  · rintro (h | ⟨-, hb, -⟩)
    · obtain ⟨name, rest, ss', ht, hname, hr, rfl⟩ := rest_dot.1 h
      cases name with
      | nil => exact absurd rfl hname.1
      | cons d more =>
        obtain ⟨rfl, rfl⟩ := List.cons.inj ht
        exact ⟨more, rest, ss', rfl, fun d hd => hname.2 d (List.mem_cons_of_mem _ hd), hr, rfl⟩
    · obtain rfl : c = '[' := by simpa using hb
      exact absurd (by simp) hc
  · rintro ⟨more, rest, ss', rfl, hmore, hr, rfl⟩
    have hname : IsName (c :: more) := ⟨List.cons_ne_nil _ _, List.forall_mem_cons.2 ⟨hc, hmore⟩⟩
    exact .inl (.name hname hr)

theorem accepts_name_nil : Accepts first (.name read) [] ss ↔ ss = [.key (String.ofList read)] := by
  constructor
  · rintro ⟨more, rest, ss', ht, -, hr, rfl⟩
    obtain ⟨rfl, rfl⟩ := List.append_eq_nil_iff.1 ht.symm
    rw [rest_nil.1 hr, List.append_nil]
  · rintro rfl
    exact ⟨[], [], [], rfl, by simp, .nil, by simp⟩

theorem accepts_name_of_mem (hc : c ∈ ['.', '[', ']']) : Accepts first (.name read) (c :: t) ss ↔
    ∃ ss', Rest (c :: t) ss' ∧ ss = .key (String.ofList read) :: ss' := by
  constructor
  · rintro ⟨more, rest, ss', ht, hmore, hr, rfl⟩
    cases more with
    | nil => exact ⟨ss', ht ▸ hr, by rw [List.append_nil]⟩
    | cons d more =>
      obtain ⟨rfl, -⟩ := List.cons.inj ht
      exact absurd hc (hmore c List.mem_cons_self)
  · rintro ⟨ss', hr, rfl⟩
    exact ⟨[], c :: t, ss', rfl, by simp, hr, by rw [List.append_nil]⟩

theorem accepts_name_cons (hc : c ∉ ['.', '[', ']']) :
    Accepts first (.name read) (c :: t) ss ↔ Accepts first (.name (read ++ [c])) t ss := by
  constructor
  · rintro ⟨more, rest, ss', ht, hmore, hr, rfl⟩
    cases more with
    | nil =>
      rw [List.nil_append] at ht
      rcases (ht ▸ hr).head with rfl | rfl
      · exact absurd (by simp) hc
      · exact absurd (by simp) hc
    | cons d more =>
      obtain ⟨rfl, rfl⟩ := List.cons.inj ht
      exact ⟨more, rest, ss', rfl, fun d hd => hmore d (List.mem_cons_of_mem _ hd), hr, by simp⟩
  · rintro ⟨more, rest, ss', rfl, hmore, hr, rfl⟩
    exact ⟨c :: more, rest, ss', rfl, List.forall_mem_cons.2 ⟨hc, hmore⟩, hr, by simp⟩

theorem not_accepts_bracket_nil : ¬Accepts first (.bracket read) [] ss := by
  rintro ⟨more, rest, s, ss', ht, -⟩
  simp at ht

theorem accepts_bracket_closed : Accepts first (.bracket read) (']' :: t) ss ↔
    ∃ s ss', Means read s ∧ Rest t ss' ∧ ss = s :: ss' := by
  constructor
  · rintro ⟨more, rest, s, ss', ht, hmore, hm, hr, rfl⟩
    cases more with
    | nil =>
      obtain ⟨-, rfl⟩ := List.cons.inj ht
      exact ⟨s, ss', by rwa [List.append_nil] at hm, hr, rfl⟩
    | cons d more =>
      obtain ⟨rfl, -⟩ := List.cons.inj ht
      exact absurd List.mem_cons_self hmore
  · rintro ⟨s, ss', hm, hr, rfl⟩
    exact ⟨[], t, s, ss', rfl, by simp, by rwa [List.append_nil], hr, rfl⟩

theorem accepts_bracket_cons (hc : c ≠ ']') :
    Accepts first (.bracket read) (c :: t) ss ↔ Accepts first (.bracket (read ++ [c])) t ss := by
  constructor
  · rintro ⟨more, rest, s, ss', ht, hmore, hm, hr, rfl⟩
    cases more with
    | nil => exact absurd (List.cons.inj ht).1 hc
    | cons d more =>
      obtain ⟨rfl, rfl⟩ := List.cons.inj ht
      exact ⟨more, rest, s, ss', rfl, fun h => hmore (List.mem_cons_of_mem _ h), by simpa using hm, hr, rfl⟩
  · rintro ⟨more, rest, s, ss', rfl, hmore, hm, hr, rfl⟩
    refine ⟨c :: more, rest, s, ss', rfl, ?_, by simpa using hm, hr, rfl⟩
    rw [List.mem_cons, not_or]
    exact ⟨Ne.symm hc, hmore⟩

end Accepts

/-! ## Reading -/

theorem map_eq_ok_iff {ε α β : Type} {f : α → β} {x : Except ε α} {b : β} :
    x.map f = .ok b ↔ ∃ a, x = .ok a ∧ b = f a := by
  cases x with
  | error e => simp [Except.map]
  | ok a => simp [Except.map, eq_comm]

/-- **Reading succeeds where the text ahead is accepted**, and gives its segments. -/
theorem steps_eq_ok_iff {previous : Option (List Char)} {here : List Char} {phase : Phase} {t : List Char}
    {ss : List Segment} : steps previous here phase t = .ok ss ↔ Accepts previous.isNone phase t ss := by
  -- one case for each branch of the reader; what is accepted in front of it is what is accepted behind it, so `here`,
  -- which only errors quote, plays no part
  fun_induction steps previous here phase t generalizing ss with
  | case1 => exact iff_of_false (by simp) not_accepts_start_nil
  | case2 previous here c cs h ih =>
    simp only [Bool.and_eq_true, decide_eq_true_eq] at h
    obtain ⟨rfl, hp⟩ := h
    rw [ih, hp, accepts_start_bracket]
  | case3 previous here c cs hb hc =>
    -- a bracket gets here only behind a dot
    refine iff_of_false (by simp) (not_accepts_start_of_mem (by simpa [or_assoc] using hc) ?_)
    rintro rfl
    cases previous with
    | none => simp at hb
    | some before => rfl
  | case4 previous here c cs _ hc ih => rw [ih, accepts_start_cons (by simpa [not_or, and_assoc] using hc)]
  | case5 => rw [accepts_name_nil, Except.ok.injEq, eq_comm]
  | case6 previous here read cs ih =>
    rw [map_eq_ok_iff, accepts_name_of_mem (by simp)]
    simp only [ih, Option.isNone_some, accepts_start_some]
  | case7 previous here read cs _ ih =>
    rw [map_eq_ok_iff, accepts_name_of_mem (by simp)]
    simp only [ih, accepts_bracket_start]
  | case8 previous here read cs =>
    refine iff_of_false (by simp) fun h => ?_
    obtain ⟨ss', hr, -⟩ := (accepts_name_of_mem (by simp)).1 h
    simpa using hr.head
  | case9 previous here read c cs h h' h'' ih => rw [ih, accepts_name_cons (by simp [h, h', h''])]
  | case10 => exact iff_of_false (by simp) not_accepts_bracket_nil
  | case11 previous here read cs step hstep ih =>
    rw [map_eq_ok_iff, accepts_bracket_closed]
    simp only [ih, ← bracketStep_eq_ok_iff, hstep, Except.ok.injEq]
    exact ⟨fun ⟨a, ha, h⟩ => ⟨step, a, rfl, ha, h⟩, fun ⟨_, a, h, ha, h'⟩ => ⟨a, ha, h ▸ h'⟩⟩
  | case12 previous here read cs fault hstep =>
    refine iff_of_false (by simp) fun h => ?_
    obtain ⟨s, ss', hm, -⟩ := accepts_bracket_closed.1 h
    rw [bracketStep_eq_ok_iff.2 hm] at hstep
    cases hstep
  | case13 previous here read c cs hc ih => rw [ih, accepts_bracket_cons hc]
  | case14 => rw [Except.ok.injEq, eq_comm]; exact rest_nil.symm
  | case15 previous here cs ih => exact ih.trans accepts_start_some
  | case16 previous here cs _ ih => exact ih.trans accepts_bracket_start
  | case17 previous here c cs hdot hbracket =>
    exact iff_of_false (by simp) fun h => (Rest.head h).elim hdot hbracket

theorem parse_eq_ok_iff {text : String} {path : Path} :
    parse text = .ok path ↔ Spells (Text.trim text.toList) path := by
  rw [parse]
  cases ht : Text.trim text.toList with
  | nil => simp [spells_iff, not_rest_dot_nil, eq_comm]
  | cons c cs =>
    rw [steps_eq_ok_iff, spells_iff]
    refine or_congr_right ⟨fun ⟨_, hb, hr⟩ => ⟨by simp [hb], hr⟩, fun ⟨hdot, hr⟩ => ⟨rfl, ?_, hr⟩⟩
    rcases hr.head with rfl | rfl
    · exact absurd rfl hdot
    · rfl

/-- **The reader accepts the texts of the grammar and no others**, and gives their paths: a text without the blanks around
it, of which there is one, is read as the path it spells, and if it spells none there is an error. -/
theorem parse_grammar (text : String) : ∃ t, (∀ t', Text.TrimsTo text.toList t' ↔ t' = t) ∧
    (∀ path, parse text = .ok path ↔ Spells t path) ∧
    ((∃ e, parse text = .error e) ↔ ∀ path, ¬Spells t path) := by
  refine ⟨Text.trim text.toList, fun t' => by rw [Text.trimsTo_iff, eq_comm], fun _ => parse_eq_ok_iff, ?_⟩
  simp only [← parse_eq_ok_iff]
  cases parse text with
  | error e => simp
  | ok path => simp

example : parse " users[ 007 ].first name[*] " =
    .ok [.key "users", .index 7, .key "first name", .wildcard] := by rfl

end DocQuery.Path
