import DocQuery.Decode
import DocQuery.Proofs.Json.WrittenScalars
import Mathlib.Data.List.DropRight
/-!
# Values as JSON text

A written value is read back, in the compact form and in the indented one: they differ in white space only, which the
reader passes over (`value_skipSpace`), so one proof serves every spacing made of it.  The parts of a container are read
with the reader of values for one level less; what the writer puts behind a part may stand behind a value, and there are
no more parts than characters.
-/
namespace DocQuery.Json

/-! ## White space -/

theorem skipSpace_append {blanks : List Char} (h : ∀ c ∈ blanks, isSpace c = true) (cs : List Char) :
    skipSpace (blanks ++ cs) = skipSpace cs :=
  List.dropWhile_append_of_pos h

theorem value_skipSpace (depth : Nat) (cs : List Char) : value depth (skipSpace cs) = value depth cs := by
  have hskip : skipSpace (skipSpace cs) = skipSpace cs := List.dropWhile_idempotent isSpace cs
  unfold value
  rw [hskip]

theorem value_append {blanks : List Char} (h : ∀ c ∈ blanks, isSpace c = true) (depth : Nat) (cs : List Char) :
    value depth (blanks ++ cs) = value depth cs := by
  rw [← value_skipSpace, skipSpace_append h, value_skipSpace]

theorem skipSpace_of_value {depth : Nat} {cs r : List Char} {v : Value} (h : value depth cs = .ok (v, r)) :
    ∃ c more, skipSpace cs = c :: more ∧ c ≠ ']' := by
  unfold value at h
  cases hcs : skipSpace cs with
  | nil =>
    rw [hcs] at h
    cases h
  | cons c more =>
    refine ⟨c, more, rfl, ?_⟩
    rintro rfl
    rw [hcs] at h
    cases h

theorem follows_append {blanks cs : List Char} (h : ∀ c ∈ blanks, isSpace c = true) (hcs : Follows cs) :
    Follows (blanks ++ cs) := by
  cases blanks with
  | nil => exact hcs
  | cons b blanks =>
    intro c hc
    cases hc
    exact .inl (h _ List.mem_cons_self)

theorem follows_cons {c : Char} (h : c ∈ [',', ']', '}']) (cs : List Char) : Follows (c :: cs) := by
  intro d hd
  cases hd
  exact .inr h

/-! ## Parts of containers -/

section Parts

variable {item : List Char → Except Halt (Value × List Char)} {depth fuel : Nat} {blanks cs r r' : List Char}
  {key : String} {v : Value} {vs : List Value} {m : String × Value} {ms : List (String × Value)}

section Items

theorem moreItems_end (hblanks : ∀ c ∈ blanks, isSpace c = true) (rest : List Char) :
    moreItems item (fuel + 1) (blanks ++ ']' :: rest) = .ok ([], rest) := by
  simp [moreItems, skipSpace_append hblanks, skipSpace_cons, isSpace]

theorem moreItems_cons (h : value depth cs = .ok (v, r)) (hmore : moreItems (value depth) fuel r = .ok (vs, r')) :
    moreItems (value depth) (fuel + 1) (',' :: cs) = .ok (v :: vs, r') := by
  obtain ⟨c, more, hcs, hc⟩ := skipSpace_of_value h
  rw [← value_skipSpace, hcs] at h
  simp [moreItems, skipSpace_cons, isSpace, hcs, hc, h, hmore]

theorem items_cons (h : value depth cs = .ok (v, r)) (hmore : moreItems (value depth) r.length.succ r = .ok (vs, r')) :
    items (value depth) cs = .ok (v :: vs, r') := by
  obtain ⟨c, more, hcs, hc⟩ := skipSpace_of_value h
  rw [← value_skipSpace, hcs] at h
  simp [items, hcs, hc, h, hmore]

end Items

section Members

variable (hblanks : ∀ c ∈ blanks, isSpace c = true)

include hblanks

theorem moreMembers_end (rest : List Char) : moreMembers item (fuel + 1) (blanks ++ '}' :: rest) = .ok ([], rest) := by
  simp [moreMembers, skipSpace_append hblanks, skipSpace_cons, isSpace]

theorem moreMembers_cons (h : member item cs = .ok (m, r)) (hmore : moreMembers item fuel r = .ok (ms, r')) :
    moreMembers item (fuel + 1) (',' :: (blanks ++ '"' :: cs)) = .ok (m :: ms, r') := by
  simp [moreMembers, skipSpace_append hblanks, skipSpace_cons, isSpace, h, hmore]

theorem members_cons (h : member item cs = .ok (m, r)) (hmore : moreMembers item r.length.succ r = .ok (ms, r')) :
    members item (blanks ++ '"' :: cs) = .ok (m :: ms, r') := by
  simp [members, skipSpace_append hblanks, skipSpace_cons, isSpace, h, hmore]

theorem member_written (h : value depth cs = .ok (v, r)) :
    member (value depth) (key.toList.flatMap escaped ++ '"' :: ':' :: (blanks ++ cs)) = .ok ((key, v), r) := by
  rw [← value_append hblanks] at h
  simp [member, string_written, skipSpace_cons, isSpace, h]

end Members
end Parts

/-! ## Written containers -/

structure Spacing.Blank (spacing : Spacing) : Prop where
  gap : ∀ d, ∀ c ∈ spacing.gap d, isSpace c = true
  colon : ∃ blanks, spacing.colon = ':' :: blanks ∧ ∀ c ∈ blanks, isSpace c = true

theorem Spacing.blank_compact : Spacing.compact.Blank where
  gap := by simp [Spacing.compact]
  colon := ⟨[], rfl, by simp⟩

theorem Spacing.blank_indented : Spacing.indented.Blank where
  gap := by simp [Spacing.indented, isSpace]
  colon := ⟨[' '], rfl, by simp [isSpace]⟩

section Written

variable (spacing : Spacing)

theorem length_lt_writeItems (d : Nat) (rest : List Char) : ∀ vs : List Value,
    vs.length < (writeItems spacing d vs ++ rest).length.succ
  | [] => Nat.succ_pos _
  | v :: vs => by
    have ih := length_lt_writeItems d rest vs
    simp only [writeItems, List.length_cons, List.length_append] at ih ⊢
    omega

theorem length_lt_writeEntries (d : Nat) (rest : List Char) : ∀ es : List (String × Value),
    es.length < (writeEntries spacing d es ++ rest).length.succ
  | [] => Nat.succ_pos _
  | (key, v) :: es => by
    have ih := length_lt_writeEntries d rest es
    simp only [writeEntries, List.length_cons, List.length_append] at ih ⊢
    omega

variable {spacing} (hs : spacing.Blank) {depth d e : Nat}

include hs

theorem follows_writeItems (vs : List Value) (rest : List Char) :
    Follows (writeItems spacing d vs ++ (spacing.gap e ++ ']' :: rest)) := by
  cases vs with
  | nil =>
    rw [writeItems, List.nil_append]
    exact follows_append (hs.gap e) (follows_cons (by simp) rest)
  | cons v vs => exact follows_cons List.mem_cons_self _

theorem follows_writeEntries (es : List (String × Value)) (rest : List Char) :
    Follows (writeEntries spacing d es ++ (spacing.gap e ++ '}' :: rest)) := by
  cases es with
  | nil =>
    rw [writeEntries, List.nil_append]
    exact follows_append (hs.gap e) (follows_cons (by simp) rest)
  | cons e es => exact follows_cons List.mem_cons_self _

theorem moreItems_written (rest : List Char) : ∀ (vs : List Value) (fuel : Nat), vs.length < fuel →
    (∀ v ∈ vs, Reads depth (write spacing d v) v) →
    moreItems (value depth) fuel (writeItems spacing d vs ++ (spacing.gap e ++ ']' :: rest)) = .ok (vs, rest)
  | [], fuel + 1, _, _ => moreItems_end (hs.gap e) rest
  | v :: vs, fuel + 1, hfuel, h => by
    obtain ⟨hv, hvs⟩ := List.forall_mem_cons.1 h
    have hread := hv _ (follows_writeItems hs (d := d) (e := e) vs rest)
    rw [← value_append (hs.gap d)] at hread
    have hmore := moreItems_written rest vs fuel (Nat.lt_of_succ_lt_succ hfuel) hvs
    simp only [writeItems, List.cons_append, List.append_assoc]
    exact moreItems_cons hread hmore

theorem reads_array : ∀ {vs : List Value}, (∀ v ∈ vs, Reads depth (write spacing (d + 1) v) v) →
    Reads (depth + 1) (write spacing d (.array vs)) (.array vs)
  -- an empty array has no gap inside
  | [], _, rest, _ => by
    simp [write, value, items, skipSpace_cons, isSpace]
  | v :: vs, h, rest, _ => by
    obtain ⟨hv, hvs⟩ := List.forall_mem_cons.1 h
    have hread := hv _ (follows_writeItems hs (d := d + 1) (e := d) vs rest)
    rw [← value_append (hs.gap (d + 1))] at hread
    have hfuel := length_lt_writeItems spacing (d + 1) (spacing.gap d ++ ']' :: rest) vs
    have hitems := items_cons hread (moreItems_written hs rest vs _ hfuel hvs)
    simp [write, value, skipSpace_cons, isSpace, hitems]

theorem member_entry (key : String) {v : Value} (hv : Reads depth (write spacing d v) v)
    (es : List (String × Value)) (rest : List Char) :
    member (value depth) (key.toList.flatMap escaped ++ '"' :: (spacing.colon ++ (write spacing d v ++
      (writeEntries spacing d es ++ (spacing.gap e ++ '}' :: rest))))) =
      .ok ((key, v), writeEntries spacing d es ++ (spacing.gap e ++ '}' :: rest)) := by
  obtain ⟨blanks, hcolon, hblanks⟩ := hs.colon
  rw [hcolon]
  exact member_written hblanks (hv _ (follows_writeEntries hs es rest))

theorem moreMembers_written (rest : List Char) : ∀ (es : List (String × Value)) (fuel : Nat), es.length < fuel →
    (∀ e ∈ es, Reads depth (write spacing d e.2) e.2) →
    moreMembers (value depth) fuel (writeEntries spacing d es ++ (spacing.gap e ++ '}' :: rest)) = .ok (es, rest)
  | [], fuel + 1, _, _ => moreMembers_end (hs.gap e) rest
  | (key, v) :: es, fuel + 1, hfuel, h => by
    obtain ⟨hv, hes⟩ := List.forall_mem_cons.1 h
    have hread := member_entry hs (e := e) key hv es rest
    have hmore := moreMembers_written rest es fuel (Nat.lt_of_succ_lt_succ hfuel) hes
    simp only [writeEntries, stringText, List.cons_append, List.append_assoc]
    exact moreMembers_cons (hs.gap d) hread hmore

theorem reads_object : ∀ {es : List (String × Value)}, (Entries.keys es).Nodup →
    (∀ e ∈ es, Reads depth (write spacing (d + 1) e.2) e.2) →
    Reads (depth + 1) (write spacing d (.object es)) (.object es)
  | [], _, _, rest, _ => by
    simp [write, value, members, skipSpace_cons, isSpace, Entries.ofPairs]
  | (key, v) :: es, hkeys, h, rest, _ => by
    obtain ⟨hv, hes⟩ := List.forall_mem_cons.1 h
    have hread := member_entry hs (e := d) key hv es rest
    have hfuel := length_lt_writeEntries spacing (d + 1) (spacing.gap d ++ '}' :: rest) es
    have hmembers := members_cons (hs.gap (d + 1)) hread (moreMembers_written hs rest es _ hfuel hes)
    simp [write, value, stringText, skipSpace_cons, isSpace, hmembers, Entries.ofPairs_of_nodup hkeys]

/-- **A written value is read back** by a reader that may go as deep as the value does. -/
theorem reads_write (v : Value) : ∀ {depth d : Nat}, v.depth ≤ depth → v.Everywhere Value.UniqueKeys →
    v.Everywhere Value.NotFloat → Reads depth (write spacing d v) v := by
  -- `depth` is what is left of the reader's limit, while `d` only indents
  induction v using Value.childInduction with
  | h v ih =>
    intro depth d hdepth hkeys hfloat
    cases v with
    | scalar x =>
      rw [write]
      exact reads_scalar depth (Value.everywhere_scalar.1 hfloat)
    | array vs =>
      cases depth with
      | zero => exact absurd hdepth (Nat.not_succ_le_zero _)
      | succ depth =>
        have hinside := Value.itemsDepth_le.1 (Nat.le_of_succ_le_succ hdepth)
        rw [Value.everywhere_array] at hkeys hfloat
        refine reads_array hs fun u hu => ?_
        obtain ⟨step, hstep⟩ := Value.exists_mem_children_array hu
        exact ih _ hstep (hinside u hu) (hkeys.2 u hu) (hfloat.2 u hu)
    | object es =>
      cases depth with
      | zero => exact absurd hdepth (Nat.not_succ_le_zero _)
      | succ depth =>
        have hinside := Value.entriesDepth_le.1 (Nat.le_of_succ_le_succ hdepth)
        rw [Value.everywhere_object] at hkeys hfloat
        refine reads_object hs hkeys.1 fun e he => ?_
        exact ih _ (Value.mem_children_object he) (hinside e he) (hkeys.2 e he) (hfloat.2 e he)

theorem document_write {v : Value} (hdepth : v.depth ≤ depthLimit) (hkeys : v.Everywhere Value.UniqueKeys)
    (hfloat : v.Everywhere Value.NotFloat) : document (write spacing d v) = .ok v := by
  have hnothing : Follows [] := fun c hc => by cases hc
  have hread := reads_write hs v hdepth hkeys hfloat (d := d) [] hnothing
  rw [List.append_nil] at hread
  simp [document, hread, skipSpace]

end Written
end DocQuery.Json

namespace DocQuery

/-- **A value without floats is decoded from its JSON text**, compact or indented, as long as its keys stand once and no
more containers are inside each other than are read. -/
theorem decodeJson_written {v : Value} (hfloat : v.Everywhere Value.NotFloat) (hkeys : v.Everywhere Value.UniqueKeys)
    (hdepth : v.depth ≤ 127) : decodeJson v.compactJson = .ok v ∧ decodeJson v.indentedJson = .ok v := by
  have hcompact := Json.document_write Json.Spacing.blank_compact (d := 0) hdepth hkeys hfloat
  have hindented := Json.document_write Json.Spacing.blank_indented (d := 0) hdepth hkeys hfloat
  constructor
  · rw [decodeJson, Value.compactJson, String.toList_ofList, hcompact]
  · rw [decodeJson, Value.indentedJson, String.toList_ofList, hindented]

/-- A document with what is easily lost: empty containers, the least and the greatest integer, and characters that
are escaped or lie outside the basic plane. -/
theorem decodeJson_written_nested : ∃ v : Value, v = .object
      [("", .array [.integer Int64.minValue, .integer Int64.maxValue, .integer 0]),
        ("\"key\\", .object [("b", .array []), ("a", .array [.array [.object []], .null, .boolean false])]),
        ("text", .string "\x00\x1f\x7f\n\t/é\u2028😀")] ∧
    decodeJson v.compactJson = .ok v ∧ decodeJson v.indentedJson = .ok v :=
  ⟨_, rfl, decodeJson_written
    (by simp [Value.NotFloat, Value.integer, Value.number, Value.string, Value.null, Value.boolean])
    (by simp [Value.UniqueKeys, Entries.keys, Value.integer, Value.number, Value.string, Value.null, Value.boolean])
    (by decide)⟩

end DocQuery
