import DocQuery.Proofs.Yaml.Frames
import DocQuery.Proofs.Yaml.OpenBlocks
import Mathlib.Data.List.Chain
import Mathlib.Data.List.TakeWhile
/-!
# Frames never go wrong

The frames that lines lead to are those of open blocks (`State.decoder`), operation by operation, so a value always
finds its slot and the innermost frame is there whenever it is asked for: what ends reading early is a fault of a line,
the one that open blocks find (`Frames.document_eq`).  And what holds of open blocks holds of the frames
(`Frames.Decoder.Invariant`).
-/
namespace DocQuery.Yaml

open Frames (Failure Frame Decoder Slot Container)

/-! ## Marks of a line -/

/-- The marks of a line, split off dash by dash. -/
def lineMarks (column : Nat) (content : List Char) : List (Nat × Mark) :=
  match h : itemBody? content with
  | some (offset, body) =>
    have := length_lt_of_itemBody? h
    (column, .item) :: if body.isEmpty then [] else lineMarks (column + offset) body
  | none => [(column, .ofContent content)]
termination_by content.length

theorem lineMarks_of_item {column offset : Nat} {content body : List Char}
    (h : itemBody? content = some (offset, body)) :
    lineMarks column content = (column, .item) :: if body.isEmpty then [] else lineMarks (column + offset) body := by
  rw [lineMarks]
  split
  · rename_i offset' body' h'
    obtain ⟨rfl, rfl⟩ : offset' = offset ∧ body' = body := by simpa using h'.symm.trans h
    rfl
  · rename_i h'
    rw [h] at h'
    cases h'

theorem lineMarks_of_no_item {column : Nat} {content : List Char} (h : itemBody? content = none) :
    lineMarks column content = [(column, .ofContent content)] := by
  rw [lineMarks]
  split
  · rename_i h'
    rw [h] at h'
    cases h'
  · rfl

theorem marks_dropWhile (cs : List Char) (column : Nat) :
    marks column cs = marks (column + (cs.takeWhile (· == ' ')).length) (cs.dropWhile (· == ' ')) := by
  have hspaces : cs.takeWhile (· == ' ') = List.replicate (cs.takeWhile (· == ' ')).length ' ' :=
    List.eq_replicate_of_mem fun c hc => by simpa using List.mem_takeWhile_imp hc
  rw [← marks_replicate, ← hspaces, List.takeWhile_append_dropWhile]

/-- **A content that does not start with a space has the marks that splitting gives.** -/
theorem lineMarks_eq_marks (column : Nat) (content : List Char) (hne : content ≠ [])
    (hhead : content.head? ≠ some ' ') :
    lineMarks column content = marks column content := by
  induction hn : content.length using Nat.strong_induction_on generalizing column content with
  | _ n ih =>
  cases hi : itemBody? content with
  | none =>
    rw [lineMarks_of_no_item hi]
    unfold itemBody? at hi
    unfold marks
    split <;> simp_all
  | some p =>
    obtain ⟨offset, body⟩ := p
    have hlt : body.length < n := hn ▸ length_lt_of_itemBody? hi
    rw [lineMarks_of_item hi]
    obtain ⟨rfl, -, rfl⟩ | ⟨cs, rfl, rfl, rfl⟩ := itemBody?_eq_some hi
    · rfl
    · have hm : marks column ('-' :: ' ' :: cs) = (column, .item) :: marks (column + 2) cs := rfl
      rw [hm, marks_dropWhile cs, Nat.add_assoc]
      have hbody := List.head?_dropWhile_not (· == ' ') cs
      cases hb : cs.dropWhile (· == ' ') with
      | nil => rfl
      | cons d ds =>
        rw [hb] at hbody hlt
        rw [if_neg (by simp), ih _ hlt _ (d :: ds) (by simp) (by simpa using hbody) rfl]

theorem LineReading.marks_eq_lineMarks {raw : List Char} {l : Line} (h : LineReading.ofText raw = .content l) :
    l.marks = lineMarks l.column l.content := by
  obtain ⟨c, cs, hl, hc⟩ := LineReading.exists_cons_of_content h
  have hspace : c ≠ ' ' := fun h => by simp [h, isIndentation] at hc
  rw [Line.marks, hl, lineMarks_eq_marks _ _ (by simp) (by simpa using hspace)]

/-! ## Frames of open blocks -/

def Block.frame : Block → Frame
  | .mapping c es pending => ⟨c, .entries es, pending.map .key⟩
  | .sequence c vs pending => ⟨c, .items vs, if pending then some .item else none⟩

def Waiting.frame : Waiting → Frame
  | .key c es k => ⟨c, .entries es, some (.key k)⟩
  | .item c vs => ⟨c, .items vs, some .item⟩

def State.decoder : State → Decoder
  | .start => .empty
  | .scalar s => ⟨[], some s⟩
  | .blocks top below => ⟨top.frame :: below.map Waiting.frame, none⟩

/-- What a step of open blocks leads to, as frames. -/
def inFrames : Except Fault State → Except Failure Decoder
  | .ok s => .ok s.decoder
  | .error fault => .error (.fault fault)

theorem Waiting.fill_frame (w : Waiting) (v : Value) : w.frame.fill v = .ok (w.fill v).frame := by
  cases w <;> rfl

theorem Block.settle_frame (b : Block) : b.frame.settle = .ok b.settle.frame := by
  cases b with
  | mapping c es pending => cases pending <;> rfl
  | sequence c vs pending => cases pending <;> rfl

theorem Block.value_frame (b : Block) : b.frame.value = .ok b.value := by
  rw [Frames.Frame.value, b.settle_frame]
  cases b with
  | mapping c es pending => cases pending <;> rfl
  | sequence c vs pending => cases pending <;> rfl

theorem Block.frame_of_waiting {b : Block} {w : Waiting} (h : b.waiting? = some w) : b.frame = w.frame := by
  unfold Block.waiting? at h
  split at h <;> cases h <;> rfl

theorem Block.pending_frame (b : Block) : b.frame.pending.isNone = b.waiting?.isNone := by
  cases b with
  | mapping c es pending => cases pending <;> rfl
  | sequence c vs pending => cases pending <;> rfl

@[simp] theorem Block.column_frame (b : Block) : b.frame.column = b.column := by
  cases b <;> rfl

@[simp] theorem Block.isSequence_frame (b : Block) : b.frame.isSequence = b.isSequence := by
  cases b <;> rfl

@[simp] theorem Waiting.column_frame (w : Waiting) : w.frame.column = w.column := by
  cases w <;> rfl

@[simp] theorem Waiting.isSequence_frame (w : Waiting) : w.frame.isSequence = w.isSequence := by
  cases w <;> rfl

namespace Frames.Decoder

variable {top : Block} {below : List Waiting} {column c : Nat} {content body key text : List Char} {es : Entries}
  {vs : List Value}

theorem closeTop_blocks (w : Waiting) :
    (State.blocks top (w :: below)).decoder.closeTop = .ok (State.blocks (w.fill top.value) below).decoder := by
  simp only [closeTop, State.decoder, top.value_frame, List.map_cons]
  simp [bind, Except.bind, modifyTop, w.fill_frame, pure, Except.pure]

theorem closeRight_of_lt {d d' : Decoder} {f : Frame} (hl : 1 < d.frames.length) (ht : d.top = .ok f)
    (hc : column < f.column) (hd : d.closeTop = .ok d') : d.closeRight column = d'.closeRight column := by
  rw [closeRight, dif_pos hl, ht]
  simp only [bind, Except.bind, if_pos hc]
  split
  · rename_i h
    rw [hd] at h
    cases h
    rfl
  · rename_i h
    rw [hd] at h
    cases h

theorem closeRight_of_le {d : Decoder} {f : Frame} (ht : d.top = .ok f) (hc : ¬ column < f.column) :
    d.closeRight column = .ok d := by
  rw [closeRight]
  split
  · rw [ht]
    simp only [bind, Except.bind, if_neg hc]
    rfl
  · rfl

theorem closeRight_blocks (column : Nat) : ∀ (below : List Waiting) (top : Block),
    (State.blocks top below).decoder.closeRight column =
      .ok (State.blocks (State.dedent column top below).1 (State.dedent column top below).2).decoder
  | [], top => by rw [closeRight, dif_neg (by simp [State.decoder])]; rfl
  | w :: ws, top => by
    unfold State.dedent
    by_cases h : column < top.column
    · rw [if_pos h, closeRight_of_lt (by simp [State.decoder]) rfl (by simpa using h) (closeTop_blocks w)]
      exact closeRight_blocks column ws (w.fill top.value)
    · rw [if_neg h]
      exact closeRight_of_le rfl (by simpa using h)

theorem closeAll_of_closeTop {d d' : Decoder} (hl : 1 < d.frames.length) (hd : d.closeTop = .ok d') :
    d.closeAll = d'.closeAll := by
  rw [closeAll, dif_pos hl]
  split
  · rename_i h
    rw [hd] at h
    cases h
    rfl
  · rename_i h
    rw [hd] at h
    cases h

theorem closeAll_blocks : ∀ (below : List Waiting) (top : Block), ∃ last : Block,
    (State.blocks top below).decoder.closeAll = .ok (State.blocks last []).decoder ∧
      last.value = State.closeAll top below
  | [], top => ⟨top, by rw [closeAll, dif_neg (by simp [State.decoder])]; rfl, rfl⟩
  | w :: ws, top => by
    rw [closeAll_of_closeTop (by simp [State.decoder]) (closeTop_blocks w)]
    exact closeAll_blocks ws (w.fill top.value)

theorem finish_decoder (s : State) : s.decoder.finish = .ok s.finish := by
  cases s with
  | start => rw [finish, State.decoder, empty]; simp only; rw [closeAll]; rfl
  | scalar v => rfl
  | blocks top below =>
    obtain ⟨last, hc, hv⟩ := closeAll_blocks below top
    have hroot : (State.blocks top below).decoder.root = none := rfl
    rw [finish, hroot]
    simp only [hc, bind, Except.bind]
    exact last.value_frame.trans (congrArg Except.ok hv)

/-! ## One line -/

theorem modifyTop_blocks {change : Frame → Except Failure Frame} {b : Block} (h : change top.frame = .ok b.frame) :
    (State.blocks top below).decoder.modifyTop change = .ok (State.blocks b below).decoder := by
  simp only [modifyTop, State.decoder, h]
  rfl

theorem enter_blocks {pending : Option String} (h : entryParts? content = some (key, text)) :
    (State.blocks (.mapping c es pending) below).decoder.enter content =
      inFrames (State.enter c es key text below) := by
  unfold enter State.enter
  rw [h]
  dsimp only
  split
  · rfl
  split
  · exact modifyTop_blocks rfl
  · exact modifyTop_blocks rfl

theorem feed_singleton (s : State) (m : Nat × Mark) : s.feed [m] = s.step m.1 m.2 := by
  rw [State.feed]
  cases s.step m.1 m.2 <;> rfl

mutual

theorem startItem_blocks {pending : Bool} (body : List Char) (column : Nat) {c : Nat} {vs : List Value}
    {below : List Waiting} (h : c < column) :
    (State.blocks (.sequence c vs pending) below).decoder.startItem column body =
      inFrames ((State.blocks (.sequence c vs true) below).feed
        (if body.isEmpty then [] else lineMarks column body)) := by
  have hmod : (State.blocks (.sequence c vs pending) below).decoder.modifyTop
      (fun f => .ok { f with pending := some .item }) = .ok (State.blocks (.sequence c vs true) below).decoder := rfl
  rw [startItem, hmod]
  simp only [bind, Except.bind]
  split
  · rfl
  · exact openNested_blocks body column h
termination_by (body.length, 1)

theorem openNested_blocks (content : List Char) (column : Nat) {top : Block} {below : List Waiting}
    (h : top.column < column) :
    (State.blocks top below).decoder.openNested column content =
      inFrames ((State.blocks top below).feed (lineMarks column content)) := by
  have htop : (State.blocks top below).decoder.top = .ok top.frame := rfl
  rw [openNested, htop]
  simp only [bind, Except.bind, top.pending_frame]
  cases hw : top.waiting? with
  | none =>
    cases hi : itemBody? content with
    | none => rw [lineMarks_of_no_item hi, feed_singleton, State.step_of_right h, hw]; rfl
    | some p =>
      obtain ⟨offset, body⟩ := p
      rw [lineMarks_of_item hi, State.feed, State.step_of_right h, hw]
      rfl
  | some w =>
    rw [if_neg (by simp)]
    have hpush : ∀ b : Block, (State.blocks top below).decoder.push b.frame =
        (State.blocks b (w :: below)).decoder := fun b => by
      simp only [push, State.decoder, Block.frame_of_waiting hw, List.map_cons]
    split
    · rename_i offset body hi
      have := length_lt_of_itemBody? hi
      have hstart :
          (State.blocks (.sequence column [] false) (w :: below)).decoder.startItem (column + offset) body = _ :=
        startItem_blocks body (column + offset) (Nat.lt_add_of_pos_right (offset_pos hi))
      rw [lineMarks_of_item hi, State.feed, State.step_of_right h, hw]
      exact (congrArg (startItem (column + offset) body) (hpush (.sequence column [] false))).trans hstart
    · rename_i hi
      rw [lineMarks_of_no_item hi, feed_singleton, State.step_of_right h, hw, Mark.ofContent]
      cases he : entryParts? content with
      | some e =>
        rw [if_pos Option.isSome_some]
        exact (congrArg (enter content) (hpush (.mapping column [] none))).trans (enter_blocks he)
      | none =>
        rw [if_neg (by simp)]
        refine modifyTop_blocks ?_
        rw [Block.frame_of_waiting hw]
        exact w.fill_frame _
termination_by (content.length, 0)

end

theorem continueBlock_of_no_item {d : Decoder} {f parent : Frame} {fs : List Frame} (hd : d.frames = f :: parent :: fs)
    (hf : f.isSequence = true) (hi : itemBody? content = none) :
    d.continueBlock column content =
      if parent.column = column ∧ ¬ parent.isSequence then
        match d.closeTop with
        | .ok d' => d'.continueBlock column content
        | .error e => .error e
      else .error (.fault .expectedItem) := by
  have htop : d.top = .ok f := by rw [Decoder.top, hd]
  rw [continueBlock, htop]
  simp only [bind, Except.bind]
  rw [hf, hi]
  dsimp only
  split
  · rename_i f' parent' fs' hd'
    rw [hd] at hd'
    cases hd'
    split
    · split <;> rename_i h <;> rw [h]
    · rfl
  · rename_i h
    exact absurd hd (h f parent fs)

theorem continueBlock_mapping {pending : Option String} :
    (State.blocks (.mapping c es pending) below).decoder.continueBlock c content =
      inFrames ((State.blocks (.mapping c es pending) below).feed (lineMarks c content)) := by
  have htop : (State.blocks (.mapping c es pending) below).decoder.top = .ok (Block.mapping c es pending).frame := rfl
  have hstep : ∀ mark, (State.blocks (.mapping c es pending) below).step c mark =
      State.continueMapping c es pending mark below := fun mark => State.step_of_level
  rw [continueBlock, htop]
  simp only [bind, Except.bind, Block.isSequence_frame, Block.isSequence]
  cases hi : itemBody? content with
  | some p =>
    obtain ⟨offset, body⟩ := p
    rw [lineMarks_of_item hi, State.feed, hstep]
    cases pending with
    | none => rfl
    | some k =>
      have hstart :
          (State.blocks (.sequence c [] false) (.key c es k :: below)).decoder.startItem (c + offset) body = _ :=
        startItem_blocks body (c + offset) (Nat.lt_add_of_pos_right (offset_pos hi))
      exact hstart
  | none =>
    rw [lineMarks_of_no_item hi, feed_singleton, hstep, Mark.ofContent]
    have hsettle : (State.blocks (.mapping c es pending) below).decoder.modifyTop Frame.settle =
        .ok (State.blocks (Block.mapping c es pending).settle below).decoder := modifyTop_blocks (Block.settle_frame _)
    rw [hsettle]
    cases he : entryParts? content with
    | none => cases pending <;> simp only [enter, he] <;> rfl
    | some e =>
      cases pending with
      | none => exact enter_blocks he
      | some k => exact enter_blocks he

theorem continueBlock_sequence_of_item {pending : Bool} {offset : Nat} (hi : itemBody? content = some (offset, body)) :
    (State.blocks (.sequence c vs pending) below).decoder.continueBlock c content =
      inFrames ((State.blocks (.sequence c vs pending) below).feed (lineMarks c content)) := by
  have htop : (State.blocks (.sequence c vs pending) below).decoder.top = .ok (Block.sequence c vs pending).frame :=
    rfl
  have hstep : (State.blocks (.sequence c vs pending) below).step c .item =
      State.continueSequence c vs pending .item below := State.step_of_level
  have hsettle : (State.blocks (.sequence c vs pending) below).decoder.modifyTop Frame.settle =
      .ok (State.blocks (Block.sequence c vs pending).settle below).decoder := modifyTop_blocks (Block.settle_frame _)
  have hstart : ∀ us, (State.blocks (.sequence c us false) below).decoder.startItem (c + offset) body = _ := fun us =>
    startItem_blocks body (c + offset) (Nat.lt_add_of_pos_right (offset_pos hi))
  rw [continueBlock, htop]
  simp only [bind, Except.bind, Block.isSequence_frame, Block.isSequence]
  rw [hi, lineMarks_of_item hi, State.feed, hstep, hsettle]
  cases pending with
  | false => exact hstart vs
  | true => exact hstart (vs ++ [.null])

theorem continueBlock_sequence_of_no_item {pending : Bool} (hi : itemBody? content = none) :
    (State.blocks (.sequence c vs pending) below).decoder.continueBlock c content =
      inFrames (State.continueSequence c vs pending (.ofContent content) below) := by
  have hne : Mark.ofContent content ≠ .item := by
    unfold Mark.ofContent
    split <;> simp
  rw [State.continueSequence_of_ne_item hne]
  cases below with
  | nil =>
    rw [continueBlock]
    simp only [bind, Except.bind, Decoder.top, State.decoder, Block.isSequence_frame, Block.isSequence, hi]
    rfl
  | cons w ws =>
    have hblock : (State.blocks (.sequence c vs pending) (w :: ws)).decoder.continueBlock c content = _ :=
      continueBlock_of_no_item rfl rfl hi
    rw [hblock, closeTop_blocks]
    cases w with
    | item c' us => exact if_neg (fun h => h.2 rfl)
    | key c' es k =>
      by_cases hc : c' = c
      · subst hc
        -- the sequence is the value of the key, and the mapping below goes on with the content
        have hfill : (Waiting.key c' es k).fill (Block.sequence c' vs pending).value =
            .mapping c' (es.put k (.array (if pending then vs ++ [.null] else vs))) none := by
          cases pending <;> rfl
        generalize (if pending then vs ++ [.null] else vs) = us at hfill ⊢
        have hmap : (State.blocks (.mapping c' (es.put k (.array us)) none) ws).decoder.continueBlock c' content = _ :=
          continueBlock_mapping
        have hlevel : ∀ mark, (State.blocks (.mapping c' (es.put k (.array us)) none) ws).step c' mark = _ :=
          fun mark => State.step_of_level
        rw [lineMarks_of_no_item hi, feed_singleton, hlevel] at hmap
        rw [hfill, if_pos ⟨rfl, by simp [Waiting.isSequence]⟩]
        simpa using hmap
      · exact (if_neg (fun h => hc h.1)).trans (by simp [inFrames, hc])

theorem continueBlock_blocks :
    (State.blocks top below).decoder.continueBlock top.column content =
      inFrames ((State.blocks top below).feed (lineMarks top.column content)) := by
  cases top with
  | mapping c es pending => exact continueBlock_mapping
  | sequence c vs pending =>
    cases hi : itemBody? content with
    | some p => exact continueBlock_sequence_of_item hi
    | none =>
      have hstep : (State.blocks (.sequence c vs pending) below).step c (.ofContent content) =
          State.continueSequence c vs pending (.ofContent content) below := State.step_of_level
      simp only [Block.column]
      rw [lineMarks_of_no_item hi, feed_singleton, hstep]
      exact continueBlock_sequence_of_no_item hi

theorem openRoot_start :
    State.start.decoder.openRoot column content = inFrames (State.start.feed (lineMarks column content)) := by
  rw [openRoot]
  cases hi : itemBody? content with
  | some p =>
    obtain ⟨offset, body⟩ := p
    have hstart : (State.blocks (.sequence column [] false) []).decoder.startItem (column + offset) body = _ :=
      startItem_blocks body (column + offset) (Nat.lt_add_of_pos_right (offset_pos hi))
    rw [lineMarks_of_item hi]
    exact hstart
  | none =>
    rw [lineMarks_of_no_item hi, feed_singleton, Mark.ofContent]
    cases he : entryParts? content with
    | some e =>
      have henter : (State.blocks (.mapping column [] none) []).decoder.enter content = _ := enter_blocks he
      exact henter
    | none => rfl

theorem lineMarks_cons (column : Nat) (content : List Char) :
    ∃ mark rest, lineMarks column content = (column, mark) :: rest := by
  cases hi : itemBody? content with
  | some p => exact ⟨_, _, lineMarks_of_item hi⟩
  | none => exact ⟨_, _, lineMarks_of_no_item hi⟩

/-- **A line is fed as its marks.** -/
theorem feed_decoder (l : Line) (s : State) : s.decoder.feed l = inFrames (s.feed (lineMarks l.column l.content)) := by
  obtain ⟨column, content⟩ := l
  obtain ⟨mark, rest, hm⟩ := lineMarks_cons column content
  cases s with
  | start => exact openRoot_start
  | scalar v => rw [hm]; rfl
  | blocks top below =>
    have hdedent : (State.blocks top below).feed (lineMarks column content) =
        (State.blocks (State.dedent column top below).1 (State.dedent column top below).2).feed
          (lineMarks column content) := by
      rw [hm, State.feed, State.feed, State.step_dedent]
    have hcol := State.column_dedent column top below
    have hfeed : (State.blocks top below).decoder.feed ⟨column, content⟩ =
        ((State.blocks top below).decoder.closeRight column >>= fun d => d.top >>= fun f =>
          if column < f.column then .error (.fault .leftOfDocument)
          else if column = f.column then d.continueBlock column content
          else d.openNested column content) := rfl
    rw [hfeed, closeRight_blocks, hdedent]
    generalize (State.dedent column top below).1 = top' at hcol
    generalize (State.dedent column top below).2 = below' at hcol
    have htop : (State.blocks top' below').decoder.top = .ok top'.frame := rfl
    simp only [bind, Except.bind, htop, Block.column_frame]
    rcases Nat.lt_trichotomy column top'.column with hlt | rfl | hgt
    · obtain rfl : below' = [] := hcol.resolve_left (Nat.not_le.2 hlt)
      rw [if_pos hlt, hm, State.feed, State.step_of_left hlt]
      rfl
    · rw [if_neg (Nat.lt_irrefl _), if_pos rfl]
      exact continueBlock_blocks
    · rw [if_neg (Nat.not_lt.2 (Nat.le_of_lt hgt)), if_neg (Nat.ne_of_gt hgt)]
      exact openNested_blocks content column hgt

theorem feedAll_decoder : ∀ (lines : List Line) (s : State),
    s.decoder.feedAll lines = inFrames (s.feed (lines.flatMap fun l => lineMarks l.column l.content))
  | [], s => rfl
  | l :: lines, s => by
    rw [feedAll, feed_decoder, List.flatMap_cons, State.feed_append]
    cases s.feed (lineMarks l.column l.content) with
    | ok next => exact feedAll_decoder lines next
    | error fault => rfl

/-! ## The invariant -/

/-- **What holds of the frames between lines**: a scalar document has none, every frame below another has a slot, every
slot fits its container, each frame stands on the one below, and none is empty without a slot. -/
structure Invariant (d : Decoder) : Prop where
  scalar_alone : d.root.isSome → d.frames = []
  waiting : ∀ f ∈ d.frames.tail, f.pending.isSome
  fits : ∀ f ∈ d.frames, f.Fits
  columns : d.frames.IsChain Frame.On
  begun : ∀ f ∈ d.frames, f.Begun

theorem isChain_of_standsOn : ∀ {below : List Waiting} {f : Frame}, StandsOn f.column f.isSequence below →
    (f :: below.map Waiting.frame).IsChain Frame.On
  | [], _, _ => by simp
  | w :: ws, f, h => by
    rw [List.map_cons, List.isChain_cons_cons]
    refine ⟨?_, isChain_of_standsOn (f := w.frame) (by simpa using h.2)⟩
    rcases h.1 with hlt | ⟨heq, hs, hw⟩
    · exact .inl (by simpa using hlt)
    · cases w with
      | item c vs => exact absurd rfl hw
      | key c es k => exact .inr ⟨heq, hs, by simp [hw], k, rfl⟩

/-- **The frames of open blocks satisfy the invariant.** -/
theorem invariant_decoder {s : State} (hs : s.Sound) : s.decoder.Invariant := by
  rcases hs with rfl | hs
  · exact ⟨fun _ => rfl, by simp [State.decoder, empty], by simp [State.decoder, empty],
      by simp [State.decoder, empty], by simp [State.decoder, empty]⟩
  cases s with
  | start => exact hs.elim
  | scalar v =>
    exact ⟨fun _ => rfl, by simp [State.decoder], by simp [State.decoder], by simp [State.decoder],
      by simp [State.decoder]⟩
  | blocks top below =>
    have hfits : ∀ w : Waiting, w.frame.Fits := fun w => by cases w <;> trivial
    have hbegun : ∀ w : Waiting, w.frame.Begun := fun w => by cases w <;> exact .inr rfl
    have hon : StandsOn top.frame.column top.frame.isSequence below := by simpa using hs.2
    refine ⟨fun h => by simp [State.decoder] at h, ?_, ?_, isChain_of_standsOn hon, ?_⟩
    · intro f hf
      obtain ⟨w, -, rfl⟩ := List.mem_map.1 hf
      cases w <;> rfl
    · intro f hf
      rcases List.mem_cons.1 hf with rfl | hf
      · rcases top with ⟨c, es, _ | k⟩ | ⟨c, vs, _ | _⟩ <;> trivial
      · obtain ⟨w, -, rfl⟩ := List.mem_map.1 hf
        exact hfits w
    · intro f hf
      rcases List.mem_cons.1 hf with rfl | hf
      · rcases top with ⟨c, es, _ | k⟩ | ⟨c, vs, _ | _⟩ <;> exact hs.1
      · obtain ⟨w, -, rfl⟩ := List.mem_map.1 hf
        exact hbegun w

/-! ## Whole texts -/

theorem feedTexts_decoder : ∀ (texts : List (List Char)) (number : Nat) (s : State),
    s.decoder.feedTexts number texts =
      match s.feedTexts number texts with
      | .ok s' => .ok s'.decoder
      | .error h => .error (.fault h.fault, h.line)
  | [], number, s => rfl
  | raw :: rest, number, s => by
    rw [feedTexts, State.feedTexts, State.feedText]
    cases hr : LineReading.ofText raw with
    | blank => exact feedTexts_decoder rest (number + 1) s
    | tabbed => rfl
    | content l =>
      have hstart : (s.decoder.frames.isEmpty && s.decoder.root.isNone) = s.isStart := by cases s <;> rfl
      have hfeed : s.decoder.feed l = inFrames (s.feed l.marks) := by
        rw [feed_decoder, LineReading.marks_eq_lineMarks hr]
      dsimp only [State.feedLine]
      rw [Bool.and_assoc, hstart, hfeed]
      cases hend : isDocumentEnd l with
      | true => exact feedTexts_decoder rest (number + 1) s
      | false =>
        cases hmark : isDocumentStart l with
        | true =>
          cases hs : s.isStart with
          | true => exact feedTexts_decoder rest (number + 1) s
          | false => rfl
        | false =>
          cases s.feed l.marks with
          | ok next => exact feedTexts_decoder rest (number + 1) next
          | error fault => rfl

end Frames.Decoder

/-- **A document read with frames** is the one read with open blocks. -/
theorem Frames.document_eq (cs : List Char) :
    Frames.document cs = (Yaml.document cs).mapError fun h => (.fault h.fault, h.line) := by
  have hfeed := Decoder.feedTexts_decoder (Text.lines cs) 1 .start
  rw [Frames.document, Yaml.document]
  have hempty : State.start.decoder = Decoder.empty := rfl
  rw [← hempty, hfeed]
  cases State.start.feedTexts 1 (Text.lines cs) with
  | error h => rfl
  | ok s =>
    dsimp only
    rw [Decoder.finish_decoder]
    rfl

theorem fault_of_inFrames {r : Except Fault State} {e : Failure} (h : inFrames r = .error e) :
    ∃ fault, e = .fault fault := by
  cases r with
  | ok s => cases h
  | error fault => cases h; exact ⟨fault, rfl⟩

/-- **Frames keep their invariant, and nothing goes wrong with them.**  After lines that were accepted the invariant
holds and the document can be ended; lines that are refused have a fault; and a text is read with frames as with open
blocks, to the same value or with the same fault on the same line. -/
theorem Frames.invariant_and_no_failure :
    (∀ lines d, Decoder.empty.feedAll lines = .ok d → d.Invariant ∧ ∃ v, d.finish = .ok v) ∧
    (∀ lines e, Decoder.empty.feedAll lines = .error e → ∃ fault, e = .fault fault) ∧
    (∀ cs, Frames.document cs = (Yaml.document cs).mapError fun h => (.fault h.fault, h.line)) ∧
    (∀ cs e line, Frames.document cs = .error (e, line) → ∃ fault, e = .fault fault) := by
  have hfeed : ∀ lines, Decoder.empty.feedAll lines =
      inFrames (State.start.feed (lines.flatMap fun l => lineMarks l.column l.content)) := fun lines =>
    Decoder.feedAll_decoder lines .start
  refine ⟨fun lines d h => ?_, fun lines e h => ?_, Frames.document_eq, fun cs e line h => ?_⟩
  · rw [hfeed] at h
    cases hs : State.start.feed (lines.flatMap fun l => lineMarks l.column l.content) with
    | error fault => rw [hs] at h; cases h
    | ok s =>
      rw [hs] at h
      cases h
      exact ⟨Decoder.invariant_decoder (State.sound_feed (.inl rfl) hs), _, Decoder.finish_decoder s⟩
  · exact fault_of_inFrames ((hfeed lines).symm.trans h)
  · rw [Frames.document_eq] at h
    cases hd : Yaml.document cs with
    | ok v => rw [hd] at h; cases h
    | error halt => rw [hd] at h; cases h; exact ⟨_, rfl⟩

/-- A case of each kind: a sequence at the column of its key that nests twice on a line, a scalar behind a key, and a
text with such a scalar on its second line. -/
theorem Frames.invariant_and_no_failure_cases :
    (∃ d, Decoder.empty.feedAll [⟨0, ['k', ':']⟩, ⟨0, ['-', ' ', '-', ' ', 'a', ':']⟩] = .ok d ∧ d.Invariant ∧
      ∃ v, d.finish = .ok v) ∧
    (∃ e, Decoder.empty.feedAll [⟨0, ['k', ':']⟩, ⟨0, ['k']⟩] = .error e ∧ ∃ fault, e = .fault fault) ∧
    ∃ e, Frames.document ['k', ':', '\n', 'k'] = .error (e, 2) ∧ ∃ fault, e = .fault fault := by
  obtain ⟨hok, herror, -, htext⟩ := Frames.invariant_and_no_failure
  have hframes : Decoder.empty.feedAll [⟨0, ['k', ':']⟩, ⟨0, ['-', ' ', '-', ' ', 'a', ':']⟩] =
      .ok ⟨[⟨4, .entries [], some (.key "a")⟩, ⟨2, .items [], some .item⟩, ⟨0, .items [], some .item⟩,
        ⟨0, .entries [], some (.key "k")⟩], none⟩ := by
    refine (Decoder.feedAll_decoder _ .start).trans ?_
    rw [List.flatMap_cons, List.flatMap_cons, lineMarks_eq_marks 0 ['k', ':'] (by simp) (by simp),
      lineMarks_eq_marks 0 ['-', ' ', '-', ' ', 'a', ':'] (by simp) (by simp)]
    rfl
  have hfault : Decoder.empty.feedAll [⟨0, ['k', ':']⟩, ⟨0, ['k']⟩] = .error (.fault .expectedEntry) := by
    refine (Decoder.feedAll_decoder _ .start).trans ?_
    rw [List.flatMap_cons, List.flatMap_cons, lineMarks_eq_marks 0 ['k', ':'] (by simp) (by simp),
      lineMarks_eq_marks 0 ['k'] (by simp) (by simp)]
    rfl
  have hdocument : Frames.document ['k', ':', '\n', 'k'] = .error (.fault .expectedEntry, 2) := by
    rw [Frames.document_eq]
    rfl
  exact ⟨⟨_, hframes, hok _ _ hframes⟩, ⟨_, hfault, herror _ _ hfault⟩, _, hdocument, htext _ _ _ hdocument⟩

end DocQuery.Yaml
