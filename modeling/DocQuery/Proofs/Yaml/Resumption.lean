import DocQuery.Decode
import DocQuery.Proofs.Yaml.OpenBlocks
import DocQuery.Proofs.Yaml.Reading
/-!
# Open blocks read what recursion reads

A state of open blocks stands for a reading that was interrupted: the innermost block goes on with the marks to come,
its value goes to the block below, and so on outwards (`State.resume`).  A step takes one mark from the reading and
leaves its outcome as it is (`State.agrees_step`), and a mark that a step refuses is one at which the reading stops.
So marks fed one after the other give the value that recursion gives, or stop at the same line.
-/
namespace DocQuery.Yaml

open Reading (underItem underKey verdict)

def Block.resume : Block → List Placed → Value × List Placed
  | .mapping c es none, ms =>
    let r := Reading.entries c es ms
    (.object r.1, r.2)
  | .mapping c es (some k), ms =>
    let v := Reading.value (underKey c) ms
    let r := Reading.entries c (es.put k v.1) v.2
    (.object r.1, r.2)
  | .sequence c vs false, ms =>
    let r := Reading.items c vs ms
    (.array r.1, r.2)
  | .sequence c vs true, ms =>
    let v := Reading.value (underItem c) ms
    let r := Reading.items c (vs ++ [v.1]) v.2
    (.array r.1, r.2)

/-- What reading makes of a block and of those below, each receiving the value of the one on it. -/
def resume : Block → List Waiting → List Placed → Value × List Placed
  | top, [], ms => top.resume ms
  | top, w :: ws, ms => resume (w.fill (top.resume ms).1) ws (top.resume ms).2

def State.resume : State → List Placed → Value × List Placed
  | .start, ms => Reading.root ms
  | .scalar v, ms => (.scalar v, ms)
  | .blocks top below, ms => Yaml.resume top below ms

/-- **A step agrees with reading**: what it leads to reads the same without the mark, and a mark that it refuses is
left. -/
def Agrees (after : Except Fault State) (m : Placed) (ms : List Placed) (read : Value × List Placed) : Prop :=
  match after with
  | .ok s => s.resume ms = read
  | .error _ => read.2 = m :: ms

variable {top : Block} {below : List Waiting} {m : Placed} {ms : List Placed} {line column : Nat}
  {key text : List Char} {es : Entries} {vs : List Value}

/-! ## Values that follow -/

def Waiting.fits : Waiting → Placed → Bool
  | .key c _ _ => underKey c
  | .item c _ => underItem c

theorem resume_of_waiting {w : Waiting} (h : top.waiting? = some w) :
    resume top below ms = resume (w.fill (Reading.value w.fits ms).1) below (Reading.value w.fits ms).2 := by
  have htop : top.resume ms = (w.fill (Reading.value w.fits ms).1).resume (Reading.value w.fits ms).2 := by
    unfold Block.waiting? at h
    split at h <;> cases h <;> rfl
  cases below with
  | nil => exact htop
  | cons w' ws => rw [resume, htop, resume]

theorem Block.value_item {fits : Placed → Bool} (h : fits ⟨line, column, .item⟩ = true) :
    Reading.value fits (⟨line, column, .item⟩ :: ms) = (Block.sequence column [] true).resume ms := by
  rw [Reading.value_item h, Reading.items_following]
  rfl

theorem Block.value_entry {fits : Placed → Bool} (h : fits ⟨line, column, .entry key text⟩ = true) :
    Reading.value fits (⟨line, column, .entry key text⟩ :: ms) =
      (Block.mapping column [] none).resume (⟨line, column, .entry key text⟩ :: ms) :=
  Reading.value_entry h

/-! ## Marks that a block leaves -/

theorem Block.resume_of_left (h : m.column < top.column) : top.resume (m :: ms) = (top.value, m :: ms) := by
  cases top with
  | mapping c es pending =>
    have hk : underKey c m = false := by simp [underKey, Block.column] at h ⊢; omega
    have hc : m.column ≠ c := Nat.ne_of_lt h
    cases pending <;>
      simp [Block.resume, Reading.value_of_not_fits hk, Reading.entries_of_column_ne hc, Block.value, Block.settle,
        Block.waiting?, Waiting.fill]
  | sequence c vs pending =>
    have hi : underItem c m = false := by simp [underItem, Block.column] at h ⊢; omega
    have hc : m.column ≠ c := Nat.ne_of_lt h
    cases pending <;>
      simp [Block.resume, Reading.value_of_not_fits hi, Reading.items_of_column_ne hc, Block.value, Block.settle,
        Block.waiting?, Waiting.fill]

theorem Block.resume_nil : top.resume [] = (top.value, []) := by
  cases top with
  | mapping c es pending =>
    cases pending <;> simp [Block.resume, Block.value, Block.settle, Block.waiting?, Waiting.fill]
  | sequence c vs pending =>
    cases pending <;> simp [Block.resume, Block.value, Block.settle, Block.waiting?, Waiting.fill]

theorem Block.resume_of_column_ne (hw : top.waiting? = none) (h : m.column ≠ top.column) :
    (top.resume (m :: ms)).2 = m :: ms := by
  cases top with
  | mapping c es pending =>
    cases pending with
    | none =>
      have hc : m.column ≠ c := h
      simp [Block.resume, Reading.entries_of_column_ne hc]
    | some k => cases hw
  | sequence c vs pending =>
    cases pending with
    | false =>
      have hc : m.column ≠ c := h
      simp [Block.resume, Reading.items_of_column_ne hc]
    | true => cases hw

theorem resume_of_left : ∀ {below : List Waiting} {top : Block}, (top.resume (m :: ms)).2 = m :: ms →
    (∀ w ∈ below, w.column ≠ m.column) → (resume top below (m :: ms)).2 = m :: ms
  | [], _, h, _ => h
  | w :: ws, top, h, hb => by
    rw [resume, h]
    refine resume_of_left ?_ (fun w' hw' => hb w' (List.mem_cons_of_mem _ hw'))
    refine Block.resume_of_column_ne (by simp) ?_
    simpa using (hb w List.mem_cons_self).symm

/-- **Closing the blocks to the right of a mark is what reading does there.** -/
theorem resume_dedent : ∀ {below : List Waiting} {top : Block},
    resume (State.dedent m.column top below).1 (State.dedent m.column top below).2 (m :: ms) =
      resume top below (m :: ms)
  | [], _ => rfl
  | w :: ws, top => by
    unfold State.dedent
    split
    · rename_i h
      rw [resume_dedent, resume, Block.resume_of_left h]
    · rfl

theorem resume_nil : ∀ {below : List Waiting} {top : Block}, resume top below [] = (State.closeAll top below, [])
  | [], top => Block.resume_nil
  | w :: ws, top => by rw [resume, Block.resume_nil, resume_nil, State.closeAll]

theorem State.resume_nil (s : State) : s.resume [] = (s.finish, []) := by
  cases s with
  | start => rfl
  | scalar v => rfl
  | blocks top below => exact Yaml.resume_nil

/-! ## Steps -/

namespace State

theorem agrees_enter (hb : ∀ w ∈ below, w.column ≠ column) :
    Agrees (enter column es key text below) ⟨line, column, .entry key text⟩ ms
      (Yaml.resume (.mapping column es none) below (⟨line, column, .entry key text⟩ :: ms)) := by
  have hname : (Quoted.unquote? key).getD key = keyName key := rfl
  unfold enter
  rw [hname]
  dsimp only
  by_cases hk : keyName key = []
  · rw [if_pos (by simp [hk])]
    refine resume_of_left ?_ hb
    simp [Block.resume, Reading.entries_of_keyName_nil hk]
  · rw [if_neg (by simpa using hk)]
    have hread : ∀ b : Block, b.resume ms =
        (Block.mapping column es none).resume (⟨line, column, .entry key text⟩ :: ms) →
        Agrees (.ok (.blocks b below)) ⟨line, column, .entry key text⟩ ms
          (Yaml.resume (.mapping column es none) below (⟨line, column, .entry key text⟩ :: ms)) := by
      intro b hbr
      cases below with
      | nil => exact hbr
      | cons w ws => simp only [Agrees, State.resume, Yaml.resume, hbr]
    cases text with
    | nil => exact hread _ (by simp [Block.resume, Reading.entries_following hk])
    | cons c cs => exact hread _ (by simp [Block.resume, Reading.entries_inline hk])

theorem agrees_openValue {w : Waiting} (hf : w.fits m = true) (hb : ∀ w' ∈ w :: below, w'.column ≠ m.column) :
    Agrees (openValue m.column m.mark (w :: below) fun v => .blocks (w.fill (.scalar v)) below) m ms
      (Yaml.resume (w.fill (Reading.value w.fits (m :: ms)).1) below (Reading.value w.fits (m :: ms)).2) := by
  obtain ⟨line, column, mark⟩ := m
  cases mark with
  | item =>
    rw [Block.value_item hf]
    rfl
  | entry key text =>
    rw [Block.value_entry hf]
    exact agrees_enter hb
  | text cs =>
    rw [Reading.value_text hf]
    rfl

theorem agrees_openRoot : Agrees (openValue m.column m.mark [] .scalar) m ms (Reading.root (m :: ms)) := by
  obtain ⟨line, column, mark⟩ := m
  have hroot : Reading.root (⟨line, column, mark⟩ :: ms) =
      Reading.value (fun _ => true) (⟨line, column, mark⟩ :: ms) := rfl
  rw [hroot]
  cases mark with
  | item =>
    rw [Block.value_item rfl]
    rfl
  | entry key text =>
    rw [Block.value_entry rfl]
    exact agrees_enter (fun w hw => by cases hw)
  | text cs =>
    rw [Reading.value_text rfl]
    rfl

theorem agrees_continueMapping {pending : Option String} (hm : m.column = column)
    (hb : ∀ w ∈ below, w.column < column) :
    Agrees (continueMapping column es pending m.mark below) m ms
      (Yaml.resume (.mapping column es pending) below (m :: ms)) := by
  obtain ⟨line, c, mark⟩ := m
  obtain rfl : c = column := hm
  have hne : ∀ w ∈ below, w.column ≠ c := fun w hw => Nat.ne_of_lt (hb w hw)
  cases mark with
  | item =>
    cases pending with
    | none => exact resume_of_left (by simp [Block.resume]) hne
    | some k =>
      have hf : (Waiting.key c es k).fits ⟨line, c, .item⟩ = true := by simp [Waiting.fits, underKey]
      rw [resume_of_waiting (w := .key c es k) rfl, Block.value_item hf]
      rfl
  | entry key text =>
    cases pending with
    | none => exact agrees_enter hne
    | some k =>
      have hf : (Waiting.key c es k).fits ⟨line, c, .entry key text⟩ = false := by simp [Waiting.fits, underKey]
      rw [resume_of_waiting (w := .key c es k) rfl, Reading.value_of_not_fits hf]
      exact agrees_enter hne
  | text cs =>
    refine resume_of_left ?_ hne
    cases pending with
    | none => simp [Block.resume]
    | some k =>
      have hf : underKey c ⟨line, c, .text cs⟩ = false := by simp [underKey]
      simp [Block.resume, Reading.value_of_not_fits hf]

/-- **A mark at the column of a sequence.**  Anything but an item ends it, and continues the mapping at the same
column if there is one. -/
theorem agrees_continueSequence {pending : Bool} (hm : m.column = column) (hb : StandsOn column true below) :
    Agrees (continueSequence column vs pending m.mark below) m ms
      (Yaml.resume (.sequence column vs pending) below (m :: ms)) := by
  obtain ⟨line, c, mark⟩ := m
  obtain rfl : c = column := hm
  by_cases hi : mark = .item
  · subst hi
    have hread : (Block.sequence c vs pending).resume (⟨line, c, .item⟩ :: ms) =
        (Block.sequence c (if pending then vs ++ [.null] else vs) true).resume ms := by
      have hf : underItem c ⟨line, c, .item⟩ = false := by simp [underItem]
      cases pending <;> simp [Block.resume, Reading.value_of_not_fits hf, Reading.items_following]
    cases below with
    | nil => exact hread.symm
    | cons w ws =>
      rw [Yaml.resume, hread]
      rfl
  · have hread : (Block.sequence c vs pending).resume (⟨line, c, mark⟩ :: ms) =
        (.array (if pending then vs ++ [.null] else vs), ⟨line, c, mark⟩ :: ms) := by
      have hf : underItem c ⟨line, c, mark⟩ = false := by simp [underItem]
      cases mark <;> cases pending <;> simp [Block.resume, Reading.value_of_not_fits hf] at hi ⊢
    have hleft : (∀ w ∈ below, w.column ≠ c) →
        (Yaml.resume (.sequence c vs pending) below (⟨line, c, mark⟩ :: ms)).2 = ⟨line, c, mark⟩ :: ms :=
      resume_of_left (by rw [hread])
    rw [continueSequence_of_ne_item hi]
    cases below with
    | nil => exact hleft (by simp)
    | cons w ws =>
      cases w with
      | item c' us =>
        have hlt : c' < c := by simpa [Waiting.column, Waiting.isSequence] using hb.1
        exact hleft fun w' hw' => Nat.ne_of_lt (hb.column_lt_of_head hlt w' hw')
      | key c' es k =>
        dsimp only
        by_cases hc : c' = c
        · subst hc
          have hlt : ∀ w ∈ ws, w.column < c' := hb.2.column_lt
          rw [if_pos rfl, Yaml.resume, hread]
          exact agrees_continueMapping (m := ⟨line, c', mark⟩) rfl hlt
        · have hlt : c' < c := by simpa [Waiting.column, Waiting.isSequence, hc] using hb.1
          rw [if_neg hc]
          exact hleft fun w' hw' => Nat.ne_of_lt (hb.column_lt_of_head hlt w' hw')

/-- **A step agrees with reading.** -/
theorem agrees_step {s : State} (hs : s.Sound) : Agrees (s.step m.column m.mark) m ms (s.resume (m :: ms)) := by
  cases s with
  | start => exact agrees_openRoot
  | scalar v => rfl
  | blocks top below =>
    have hd := sound_dedent m.column (hs.resolve_left (by simp))
    have hcol := column_dedent m.column top below
    have hread : State.resume (.blocks top below) (m :: ms) = _ := (resume_dedent (m := m)).symm
    rw [hread, ← step_dedent]
    generalize (dedent m.column top below).1 = top' at hd hcol
    generalize (dedent m.column top below).2 = below' at hd hcol
    rcases Nat.lt_trichotomy m.column top'.column with hlt | heq | hgt
    · obtain rfl : below' = [] := hcol.resolve_left (Nat.not_le.2 hlt)
      rw [step_of_left hlt]
      exact congrArg Prod.snd (Block.resume_of_left hlt)
    · rw [heq, step_of_level]
      cases top' with
      | mapping c es pending => exact agrees_continueMapping heq hd.2.column_lt
      | sequence c vs pending => exact agrees_continueSequence heq hd.2
    · rw [step_of_right hgt]
      have hne : ∀ w ∈ below', w.column ≠ m.column := fun w hw => by
        have := hd.2.column_le w hw
        omega
      cases hw : top'.waiting? with
      | none => exact resume_of_left (Block.resume_of_column_ne hw (Nat.ne_of_gt hgt)) hne
      | some w =>
        have hwc := (Block.waiting?_eq_some hw).1
        have hfits : w.fits m = true := by
          cases w <;> simp [Waiting.fits, underKey, underItem, Waiting.column] at hwc ⊢ <;> omega
        rw [resume_of_waiting hw]
        refine agrees_openValue hfits fun w' hw' => ?_
        rcases List.mem_cons.1 hw' with rfl | hw'
        · omega
        · exact hne w' hw'

/-! ## Lines -/

/-- **The marks of a line agree with reading**: they lead to a state that reads the same without them, or reading stops
at one of them. -/
theorem resume_feed (line : Nat) (ms : List Placed) : ∀ (marks : List (Nat × Mark)) {s : State}, s.Sound →
    match s.feed marks with
    | .ok s' => s'.resume ms = s.resume (marks.map (fun (column, mark) => ⟨line, column, mark⟩) ++ ms)
    | .error _ => ∃ m rest, m.line = line ∧
        (s.resume (marks.map (fun (column, mark) => ⟨line, column, mark⟩) ++ ms)).2 = m :: rest
  | [], _, _ => rfl
  | (column, mark) :: marks, s, hs => by
    have hstep : Agrees (s.step column mark) ⟨line, column, mark⟩
        (marks.map (fun (column, mark) => ⟨line, column, mark⟩) ++ ms) _ :=
      agrees_step (m := ⟨line, column, mark⟩) hs
    simp only [feed, List.map_cons, List.cons_append]
    cases h : s.step column mark with
    | error fault =>
      rw [h] at hstep
      exact ⟨_, _, rfl, hstep⟩
    | ok next =>
      rw [h] at hstep
      rw [← hstep]
      exact resume_feed line ms marks (.inr (underway_step hs h))

end State

theorem marks_ne_nil {c : Char} (cs : List Char) (hc : c ≠ ' ') : marks column (c :: cs) ≠ [] := by
  unfold marks
  split <;> simp_all

theorem marks_of_content {raw : List Char} {l : Line} (h : LineReading.ofText raw = .content l) : l.marks ≠ [] := by
  obtain ⟨c, cs, hl, hc⟩ := LineReading.exists_cons_of_content h
  rw [Line.marks, hl]
  refine marks_ne_nil cs fun hs => ?_
  simp [hs, isIndentation] at hc

namespace Reading

theorem verdict_of_left {read : Value × List Placed} {rest : List Placed} (h : read.2 = m :: rest) (halt : Option Nat) :
    verdict read halt = .error m.line := by
  unfold verdict
  rw [h]

theorem verdict_of_halt {read : Value × List Placed} (h : read.2 = []) (number : Nat) :
    verdict read (some number) = .error number := by
  unfold verdict
  rw [h]

theorem verdict_eq_ok {read : Value × List Placed} {halt : Option Nat} {v : Value} (h : verdict read halt = .ok v) :
    read = (v, []) ∧ halt = none := by
  unfold verdict at h
  split at h
  · cases h
  · cases h
  · rename_i hrest
    cases h
    exact ⟨Prod.ext rfl hrest, rfl⟩

theorem verdict_of_end {read : Value × List Placed} (h : read.2 = []) : verdict read none = .ok read.1 := by
  unfold verdict
  rw [h]

end Reading

namespace State

theorem isStart_of_underway {s : State} (h : s.Underway) : s.isStart = false := by
  cases s with
  | start => exact h.elim
  | scalar v => rfl
  | blocks top below => rfl

theorem verdict_feedTexts : ∀ (texts : List (List Char)) (number : Nat) {s : State}, s.Sound →
    ((s.feedTexts number texts).map finish).mapError Halt.line =
      verdict (s.resume (Reading.content number (!s.isStart) texts).1) (Reading.content number (!s.isStart) texts).2
  | [], number, s, _ => by rw [Reading.content, s.resume_nil]; rfl
  | raw :: rest, number, s, hs => by
    have hhalt : verdict (s.resume []) (some number) = .error number :=
      Reading.verdict_of_halt (by rw [s.resume_nil]) number
    rw [feedTexts, feedText, Reading.content]
    cases hr : LineReading.ofText raw with
    | blank => exact verdict_feedTexts rest (number + 1) hs
    | tabbed => exact hhalt.symm
    | content l =>
      dsimp only [feedLine]
      by_cases hend : isDocumentEnd l = true
      · rw [if_pos hend, if_pos hend]
        exact verdict_feedTexts rest (number + 1) hs
      rw [if_neg hend, if_neg hend]
      by_cases hstart : isDocumentStart l = true
      · rw [if_pos hstart, if_pos hstart]
        cases hs' : s.isStart with
        | true => simpa [hs'] using verdict_feedTexts rest (number + 1) hs
        | false => exact hhalt.symm
      rw [if_neg hstart, if_neg hstart]
      -- the line is fed as its marks, and the reading of the whole text has them in front
      have hread := resume_feed number (Reading.content (number + 1) true rest).1 l.marks hs
      cases hf : s.feed l.marks with
      | ok next =>
        rw [hf] at hread
        have hu := underway_feed_of_ne_nil (marks_of_content hr) hs hf
        have ih := verdict_feedTexts rest (number + 1) (.inr hu)
        rw [isStart_of_underway hu, Bool.not_false, hread] at ih
        exact ih
      | error fault =>
        rw [hf] at hread
        obtain ⟨m, left, hm, hleft⟩ := hread
        have hv := Reading.verdict_of_left hleft (Reading.content (number + 1) true rest).2
        rw [hm] at hv
        exact hv.symm

end State

/-- **The document that open blocks give is the one that recursion reads**, and a text that is no document is at fault
on the same line. -/
theorem document_eq_reading (cs : List Char) : (document cs).mapError Halt.line = Reading.document cs :=
  State.verdict_feedTexts (Text.lines cs) 1 (.inl rfl)

end DocQuery.Yaml

theorem DocQuery.decodeYaml_eq_ok {text : String} {v : Value} :
    decodeYaml text = .ok v ↔ Yaml.Reading.document text.toList = .ok v := by
  rw [decodeYaml, ← Yaml.document_eq_reading]
  cases Yaml.document text.toList with
  | ok w =>
    constructor
    · rintro ⟨⟩
      rfl
    · rintro ⟨⟩
      rfl
  | error halt =>
    constructor
    · rintro ⟨⟩
    · rintro ⟨⟩

theorem DocQuery.decodeYaml_eq_error {text : String} {line : Nat} :
    (∃ error, decodeYaml text = .error error ∧ error.line = line) ↔ Yaml.Reading.document text.toList = .error line := by
  rw [decodeYaml, ← Yaml.document_eq_reading]
  cases Yaml.document text.toList with
  | ok w =>
    constructor
    · rintro ⟨error, ⟨⟩, -⟩
    · rintro ⟨⟩
  | error halt =>
    constructor
    · rintro ⟨error, ⟨⟩, rfl⟩
      rfl
    · rintro ⟨⟩
      exact ⟨_, rfl, rfl⟩
