import DocQuery.Yaml.Blocks
/-!
# What holds of open blocks

Open blocks stand on one another: each stands to the right of the one it is the value of, but that a sequence may
stand at the column of the key it belongs to.  And a block that is open has something in it, or waits for it.  Both
hold of every state that marks lead to (`State.sound_feed`), and closing blocks keeps both.
-/
namespace DocQuery.Yaml

def Block.isSequence : Block → Bool
  | .mapping .. => false
  | .sequence .. => true

def Waiting.isSequence : Waiting → Bool
  | .key .. => false
  | .item .. => true

def Block.Begun : Block → Prop
  | .mapping _ es pending => es ≠ [] ∨ pending.isSome
  | .sequence _ vs pending => vs ≠ [] ∨ pending

/-- A block at a column stands on the blocks below it, and each of them on the ones further below. -/
def StandsOn (column : Nat) (isSequence : Bool) : List Waiting → Prop
  | [] => True
  | w :: ws => (w.column < column ∨ w.column = column ∧ isSequence ∧ ¬ w.isSequence) ∧
      StandsOn w.column w.isSequence ws

def Sound (top : Block) (below : List Waiting) : Prop :=
  top.Begun ∧ StandsOn top.column top.isSequence below

def State.Underway : State → Prop
  | .start => False
  | .scalar _ => True
  | .blocks top below => Sound top below

/-- **What holds of every state.** -/
def State.Sound (s : State) : Prop :=
  s = .start ∨ s.Underway

@[simp] theorem Waiting.column_fill (w : Waiting) (v : Value) : (w.fill v).column = w.column := by
  cases w <;> rfl

@[simp] theorem Waiting.isSequence_fill (w : Waiting) (v : Value) : (w.fill v).isSequence = w.isSequence := by
  cases w <;> rfl

@[simp] theorem Waiting.waiting?_fill (w : Waiting) (v : Value) : (w.fill v).waiting? = none := by
  cases w <;> rfl

theorem Entries.put_ne_nil (key : String) (v : Value) (es : Entries) : es.put key v ≠ [] := by
  cases es with
  | nil => simp [Entries.put]
  | cons e es => unfold Entries.put; split <;> simp

theorem Waiting.begun_fill (w : Waiting) (v : Value) : (w.fill v).Begun := by
  cases w with
  | key c es k => exact .inl (Entries.put_ne_nil k v es)
  | item c vs => exact .inl (by simp)

theorem Block.waiting?_eq_some {top : Block} {w : Waiting} (h : top.waiting? = some w) :
    w.column = top.column ∧ w.isSequence = top.isSequence := by
  unfold Block.waiting? at h
  split at h <;> cases h <;> exact ⟨rfl, rfl⟩

/-! ## The blocks below -/

theorem StandsOn.column_le : ∀ {column : Nat} {isSequence : Bool} {below : List Waiting},
    StandsOn column isSequence below → ∀ w ∈ below, w.column ≤ column
  | _, _, [], _, w, hw => by cases hw
  | column, _, w' :: ws, h, w, hw => by
    have hc : w'.column ≤ column := by rcases h.1 with h | h <;> omega
    rcases List.mem_cons.1 hw with rfl | hw
    · exact hc
    · exact Nat.le_trans (h.2.column_le w hw) hc

theorem StandsOn.column_lt_of_head {column : Nat} {isSequence : Bool} {w : Waiting} {ws : List Waiting}
    (h : StandsOn column isSequence (w :: ws)) (hc : w.column < column) : ∀ w' ∈ w :: ws, w'.column < column := by
  intro w' hw'
  rcases List.mem_cons.1 hw' with rfl | hw'
  · exact hc
  · exact Nat.lt_of_le_of_lt (h.2.column_le w' hw') hc

theorem StandsOn.column_lt {column : Nat} {below : List Waiting} (h : StandsOn column false below) :
    ∀ w ∈ below, w.column < column := by
  cases below with
  | nil => intro w hw; cases hw
  | cons w ws =>
    refine h.column_lt_of_head ?_
    rcases h.1 with h | ⟨-, h, -⟩
    · exact h
    · cases h

theorem Sound.waiting {top : Block} {below : List Waiting} {w : Waiting} (h : Sound top below)
    (hw : top.waiting? = some w) {column : Nat} (hc : top.column < column) (isSequence : Bool) :
    StandsOn column isSequence (w :: below) := by
  obtain ⟨h1, h2⟩ := Block.waiting?_eq_some hw
  exact ⟨.inl (h1 ▸ hc), h1 ▸ h2 ▸ h.2⟩

theorem Sound.fill {column : Nat} {isSequence : Bool} {w : Waiting} {below : List Waiting}
    (h : StandsOn column isSequence (w :: below)) (v : Value) : Sound (w.fill v) below :=
  ⟨w.begun_fill v, by simpa using h.2⟩

/-! ## Steps -/

namespace State

/-- **Closing blocks keeps what holds of them.** -/
theorem sound_dedent (column : Nat) : ∀ {top : Block} {below : List Waiting}, Yaml.Sound top below →
    Yaml.Sound (dedent column top below).1 (dedent column top below).2
  | _, [], h => h
  | top, w :: ws, h => by
    unfold dedent
    split
    · exact sound_dedent column (Sound.fill h.2 _)
    · exact h

theorem column_dedent (column : Nat) : ∀ (top : Block) (below : List Waiting),
    (dedent column top below).1.column ≤ column ∨ (dedent column top below).2 = []
  | _, [] => .inr rfl
  | top, w :: ws => by
    unfold dedent
    split
    · exact column_dedent column _ ws
    · exact .inl (by simp only; omega)

theorem dedent_of_le {column : Nat} {top : Block} {below : List Waiting} (h : top.column ≤ column ∨ below = []) :
    dedent column top below = (top, below) := by
  cases below with
  | nil => rfl
  | cons w ws => rw [dedent, if_neg (Nat.not_lt.2 (h.resolve_right (by simp)))]

theorem step_dedent {column : Nat} {mark : Mark} {top : Block} {below : List Waiting} :
    (blocks (dedent column top below).1 (dedent column top below).2).step column mark =
      (blocks top below).step column mark := by
  simp only [step, dedent_of_le (column_dedent column top below)]

theorem step_of_left {column : Nat} {mark : Mark} {top : Block} (h : column < top.column) :
    (blocks top []).step column mark = .error .leftOfDocument := by
  simp only [step, dedent_of_le (.inr rfl)]
  rw [if_pos h]

theorem step_of_level {mark : Mark} {top : Block} {below : List Waiting} :
    (blocks top below).step top.column mark =
      match top with
      | .mapping c es pending => continueMapping c es pending mark below
      | .sequence c vs pending => continueSequence c vs pending mark below := by
  simp only [step, dedent_of_le (.inl (Nat.le_refl top.column))]
  exact (if_neg (Nat.lt_irrefl _)).trans (if_pos trivial)

theorem step_of_right {column : Nat} {mark : Mark} {top : Block} {below : List Waiting} (h : top.column < column) :
    (blocks top below).step column mark =
      match top.waiting? with
      | none => .error .unmatchedIndentation
      | some w => openValue column mark (w :: below) fun s => .blocks (w.fill (.scalar s)) below := by
  have hlt : ¬column < top.column := Nat.not_lt.2 (Nat.le_of_lt h)
  have hne : ¬column = top.column := Nat.ne_of_gt h
  simp only [step, dedent_of_le (.inl (Nat.le_of_lt h))]
  exact (if_neg hlt).trans (if_neg hne)

theorem underway_enter {column : Nat} {es : Entries} {key text : List Char} {below : List Waiting} {s : State}
    (hb : StandsOn column false below) (h : enter column es key text below = .ok s) : s.Underway := by
  unfold enter at h
  simp only at h
  split at h
  · cases h
  split at h <;> cases h
  · exact ⟨.inr rfl, hb⟩
  · exact ⟨.inl (Entries.put_ne_nil _ _ _), hb⟩

theorem underway_openValue {column : Nat} {mark : Mark} {s : State} (below : List Waiting) (done : Scalar → State)
    (hb : ∀ isSequence, StandsOn column isSequence below) (hd : ∀ v, (done v).Underway)
    (h : openValue column mark below done = .ok s) : s.Underway := by
  unfold openValue at h
  split at h
  · cases h; exact ⟨.inr rfl, hb true⟩
  · exact underway_enter (hb false) h
  · cases h; exact hd _

theorem underway_continueMapping {column : Nat} {es : Entries} {pending : Option String} {mark : Mark}
    {below : List Waiting} {s : State} (hb : StandsOn column false below)
    (h : continueMapping column es pending mark below = .ok s) : s.Underway := by
  unfold continueMapping at h
  split at h
  · cases h; exact ⟨.inr rfl, .inr ⟨rfl, rfl, by simp [Waiting.isSequence]⟩, hb⟩
  · cases h
  · exact underway_enter hb h
  · exact underway_enter hb h
  · cases h

theorem underway_continueSequence {column : Nat} {vs : List Value} {pending : Bool} {mark : Mark}
    {below : List Waiting} {s : State} (hb : StandsOn column true below)
    (h : continueSequence column vs pending mark below = .ok s) : s.Underway := by
  unfold continueSequence at h
  simp only at h
  split at h
  · cases h; exact ⟨.inr rfl, hb⟩
  · split at h
    · rename_i hc
      exact underway_continueMapping (hc ▸ hb.2) h
    · cases h
  · cases h

theorem continueSequence_of_ne_item {column : Nat} {vs : List Value} {pending : Bool} {mark : Mark}
    {below : List Waiting} (hm : mark ≠ .item) :
    continueSequence column vs pending mark below =
      match below with
      | .key c es k :: ws =>
        if c = column then
          continueMapping column (es.put k (.array (if pending then vs ++ [.null] else vs))) none mark ws
        else .error .expectedItem
      | _ => .error .expectedItem := by
  unfold continueSequence
  cases mark with
  | item => exact absurd rfl hm
  | entry key text => rcases below with _ | ⟨_ | _, _⟩ <;> rfl
  | text cs => rcases below with _ | ⟨_ | _, _⟩ <;> rfl

/-- **A step keeps what holds of the open blocks.** -/
theorem underway_step {s s' : State} {column : Nat} {mark : Mark} (hs : s.Sound)
    (h : s.step column mark = .ok s') : s'.Underway := by
  cases s with
  | start => exact underway_openValue [] .scalar (fun _ => trivial) (fun _ => trivial) h
  | scalar v => cases h
  | blocks top below =>
    have hd := sound_dedent column (hs.resolve_left (by simp))
    have hcol := column_dedent column top below
    rw [← step_dedent] at h
    generalize (dedent column top below).1 = top' at h hd hcol
    generalize (dedent column top below).2 = below' at h hd hcol
    rcases Nat.lt_trichotomy column top'.column with hlt | rfl | hgt
    · obtain rfl : below' = [] := hcol.resolve_left (Nat.not_le.2 hlt)
      rw [step_of_left hlt] at h
      cases h
    · rw [step_of_level] at h
      cases top' with
      | mapping c es pending => exact underway_continueMapping hd.2 h
      | sequence c vs pending => exact underway_continueSequence hd.2 h
    · rw [step_of_right hgt] at h
      cases hw : top'.waiting? with
      | none => rw [hw] at h; cases h
      | some w =>
        rw [hw] at h
        have hb : ∀ isSequence, StandsOn column isSequence (w :: below') := hd.waiting hw hgt
        refine underway_openValue (w :: below') _ hb (fun v => ?_) h
        exact Sound.fill (hb false) _

theorem feed_append : ∀ (ms ms' : List (Nat × Mark)) (s : State),
    s.feed (ms ++ ms') = match s.feed ms with
      | .ok next => next.feed ms'
      | .error fault => .error fault
  | [], _, _ => rfl
  | (column, mark) :: ms, ms', s => by
    rw [List.cons_append, feed, feed]
    cases s.step column mark with
    | ok next => exact feed_append ms ms' next
    | error fault => rfl

theorem underway_feed : ∀ {marks : List (Nat × Mark)} {s s' : State}, s.Underway → s.feed marks = .ok s' → s'.Underway
  | [], s, s', hs, h => by cases h; exact hs
  | (column, mark) :: rest, s, s', hs, h => by
    simp only [feed] at h
    split at h
    · rename_i next hn
      exact underway_feed (underway_step (.inr hs) hn) h
    · cases h

theorem underway_feed_of_ne_nil {marks : List (Nat × Mark)} {s s' : State} (hm : marks ≠ []) (hs : s.Sound)
    (h : s.feed marks = .ok s') : s'.Underway := by
  cases marks with
  | nil => exact absurd rfl hm
  | cons m rest =>
    simp only [feed] at h
    split at h
    · rename_i next hn
      exact underway_feed (underway_step hs hn) h
    · cases h

theorem sound_feed {marks : List (Nat × Mark)} {s s' : State} (hs : s.Sound) (h : s.feed marks = .ok s') :
    s'.Sound := by
  by_cases hm : marks = []
  · subst hm; cases h; exact hs
  · exact .inr (underway_feed_of_ne_nil hm hs h)

end State
end DocQuery.Yaml
