import DocQuery.Proofs.Yaml.Resumption
import DocQuery.Proofs.Yaml.WrittenLines
/-!
# Layouts

A value has many block layouts.  At each of its nodes another quoting, another column or another place for what belongs
to a key or to an item can be chosen (`Lays`).  Reading the marks of a layout takes exactly the layout and gives the
value, as long as what stands behind it cannot go on with it (`Node.ReadAs`), and so every layout of a value decodes to
that value.
-/
namespace DocQuery

/-- **A value that layouts can express**: one without doubles, without empty arrays and objects, and with keys that are
not empty and stand once in their object. -/
inductive Value.Expressible : Value → Prop
  | scalar {x : Scalar} (h : ∀ d, x ≠ .number (.float d)) : Expressible (.scalar x)
  | array {items : List Value} (hne : items ≠ []) (h : ∀ v ∈ items, Expressible v) : Expressible (.array items)
  | object {entries : Entries} (hne : entries ≠ []) (hkeys : (Entries.keys entries).Nodup)
    (hname : "" ∉ Entries.keys entries) (h : ∀ e ∈ entries, Expressible e.2) : Expressible (.object entries)

namespace Yaml

open Reading (underItem underKey)

def Line.text (line : Line) : List Char :=
  List.replicate line.column ' ' ++ line.content

/-- **What a run of lines is laid out for.** -/
inductive Node where
  | value (v : Value)
  | item (v : Value)
  | items (vs : List Value)
  | entry (key : String) (v : Value)
  | entries (es : Entries)

/-- **The layouts of a node at a column**, which is where its first line starts.  A quoted key, the text of a scalar, the
spaces in front of what stands on the same line, and the column of what stands on lines of its own are free choices. -/
inductive Lays : Node → Nat → List Line → Prop
  | scalar {x : Scalar} {t : List Char} (c : Nat) (ht : x.Writes t) : Lays (.value (.scalar x)) c [⟨c, t⟩]
  | array {vs : List Value} {c : Nat} {ls : List Line} (hne : vs ≠ []) (h : Lays (.items vs) c ls) :
    Lays (.value (.array vs)) c ls
  | object {es : Entries} {c : Nat} {ls : List Line} (hne : es ≠ []) (h : Lays (.entries es) c ls) :
    Lays (.value (.object es)) c ls
  | noItems (c : Nat) : Lays (.items []) c []
  | items {v : Value} {vs : List Value} {c : Nat} {ls ls' : List Line} (h : Lays (.item v) c ls)
    (h' : Lays (.items vs) c ls') : Lays (.items (v :: vs)) c (ls ++ ls')
  | itemLeftOut (c : Nat) : Lays (.item .null) c [⟨c, ['-']⟩]
  | itemInline {v : Value} {c n : Nat} {t : List Char} {ls : List Line}
    (h : Lays (.value v) (c + 2 + n) (⟨c + 2 + n, t⟩ :: ls)) :
    Lays (.item v) c (⟨c, '-' :: ' ' :: (List.replicate n ' ' ++ t)⟩ :: ls)
  | itemBelow {v : Value} {c c' : Nat} {ls : List Line} (hc : c < c') (h : Lays (.value v) c' ls) :
    Lays (.item v) c (⟨c, ['-']⟩ :: ls)
  | noEntries (c : Nat) : Lays (.entries []) c []
  | entries {key : String} {v : Value} {es : Entries} {c : Nat} {ls ls' : List Line} (h : Lays (.entry key v) c ls)
    (h' : Lays (.entries es) c ls') : Lays (.entries ((key, v) :: es)) c (ls ++ ls')
  | entryLeftOut {key : String} {q : List Char} (c : Nat) (hq : Quoted.Writes key.toList q) :
    Lays (.entry key .null) c [⟨c, q ++ [':']⟩]
  | entryInline {key : String} {x : Scalar} {q t : List Char} (c n : Nat) (hq : Quoted.Writes key.toList q)
    (ht : x.Writes t) : Lays (.entry key (.scalar x)) c [⟨c, q ++ ':' :: ' ' :: (List.replicate n ' ' ++ t)⟩]
  | entryBelow {key : String} {v : Value} {q : List Char} {c c' : Nat} {ls : List Line}
    (hq : Quoted.Writes key.toList q) (hc : c < c') (h : Lays (.value v) c' ls) :
    Lays (.entry key v) c (⟨c, q ++ [':']⟩ :: ls)
  | entryLevel {key : String} {vs : List Value} {q : List Char} {c : Nat} {ls : List Line}
    (hq : Quoted.Writes key.toList q) (h : Lays (.value (.array vs)) c ls) :
    Lays (.entry key (.array vs)) c (⟨c, q ++ [':']⟩ :: ls)

/-- **The layouts of a document.**  The empty object is laid out without lines. -/
def LaysDocument (v : Value) (ls : List Line) : Prop :=
  v = .object [] ∧ ls = [] ∨ ∃ c, Lays (.value v) c ls

theorem Lays.written {n : Node} {c : Nat} {ls : List Line} (h : Lays n c ls) : ∀ l ∈ ls, Written l.content := by
  induction h with
  | scalar c ht => simpa using Written.scalar ht
  | array _ _ ih => exact ih
  | object _ _ ih => exact ih
  | noItems c => simp
  | items _ _ ih ih' => exact List.forall_mem_append.2 ⟨ih, ih'⟩
  | itemLeftOut c => simpa using Written.dash
  | itemInline _ ih =>
    obtain ⟨ht, hls⟩ := List.forall_mem_cons.1 ih
    exact List.forall_mem_cons.2 ⟨.dash_content ht _, hls⟩
  | itemBelow _ _ ih => exact List.forall_mem_cons.2 ⟨.dash, ih⟩
  | noEntries c => simp
  | entries _ _ ih ih' => exact List.forall_mem_append.2 ⟨ih, ih'⟩
  | entryLeftOut c hq => simpa using Written.key hq
  | entryInline c n hq ht => simpa using Written.key_value hq (.scalar ht) n
  | entryBelow hq _ _ ih => exact List.forall_mem_cons.2 ⟨.key hq, ih⟩
  | entryLevel hq _ ih => exact List.forall_mem_cons.2 ⟨.key hq, ih⟩

/-! ## Every value has a layout -/

theorem exists_lays_items {vs : List Value} {c : Nat} (h : ∀ v ∈ vs, ∃ ls, Lays (.value v) (c + 1) ls) :
    ∃ ls, Lays (.items vs) c ls := by
  induction vs with
  | nil => exact ⟨[], .noItems c⟩
  | cons v vs ih =>
    obtain ⟨ls, hls⟩ := h v List.mem_cons_self
    obtain ⟨ls', hls'⟩ := ih fun u hu => h u (List.mem_cons_of_mem v hu)
    exact ⟨_, .items (.itemBelow (Nat.lt_succ_self c) hls) hls'⟩

theorem exists_lays_entries {es : Entries} {c : Nat} (h : ∀ e ∈ es, ∃ ls, Lays (.value e.2) (c + 1) ls) :
    ∃ ls, Lays (.entries es) c ls := by
  induction es with
  | nil => exact ⟨[], .noEntries c⟩
  | cons e es ih =>
    obtain ⟨ls, hls⟩ := h e List.mem_cons_self
    obtain ⟨ls', hls'⟩ := ih fun u hu => h u (List.mem_cons_of_mem e hu)
    obtain ⟨q, hq⟩ := Quoted.exists_writes e.1.toList
    exact ⟨_, .entries (.entryBelow hq (Nat.lt_succ_self c) hls) hls'⟩

theorem exists_lays {v : Value} (h : v.Expressible) : ∀ c, ∃ ls, Lays (.value v) c ls := by
  induction h with
  | @scalar x h =>
    intro c
    cases x with
    | null => exact ⟨_, .scalar c .null⟩
    | boolean b => cases b with
      | false => exact ⟨_, .scalar c .false⟩
      | true => exact ⟨_, .scalar c .true⟩
    | number n => cases n with
      | integer i => exact ⟨_, .scalar c (.integer i)⟩
      | float d => exact absurd rfl (h d)
    | string s =>
      obtain ⟨q, hq⟩ := Quoted.exists_writes s.toList
      exact ⟨_, .scalar c (.string hq)⟩
  | array hne _ ih =>
    intro c
    obtain ⟨ls, hls⟩ := exists_lays_items fun v hv => ih v hv (c + 1)
    exact ⟨ls, .array hne hls⟩
  | object hne _ _ _ ih =>
    intro c
    obtain ⟨ls, hls⟩ := exists_lays_entries fun e he => ih e he (c + 1)
    exact ⟨ls, .object hne hls⟩

/-! ## Reading a layout -/

def Placed.seen (m : Placed) : Nat × Mark :=
  (m.column, m.mark)

namespace Node

/-- The nodes whose values can be read: keys are not empty and stand once in their object, and nothing in them is
empty. -/
def Expressible : Node → Prop
  | .value v => v.Expressible
  | .item v => v.Expressible
  | .items vs => ∀ v ∈ vs, v.Expressible
  | .entry key v => key ≠ "" ∧ v.Expressible
  | .entries es => (Entries.keys es).Nodup ∧ "" ∉ Entries.keys es ∧ ∀ e ∈ es, e.2.Expressible

def Opens : Node → Mark → Prop
  | .value (.scalar _), mark => ∃ t, mark = .text t
  | .value (.object _), mark | .entry _ _, mark | .entries _, mark => ∃ key t, mark = .entry key t
  | .value (.array _), mark | .item _, mark | .items _, mark => mark = .item

def Ends : Node → Nat → Placed → Prop
  | .value (.scalar _), _, _ => True
  | .value (.object _), c, m | .entries _, c, m => m.column < c
  | .item _, c, m => m.column ≤ c
  | .value (.array _), c, m | .items _, c, m | .entry _ _, c, m => m.column < c ∨ m.column = c ∧ m.mark ≠ .item

/-- **What reading makes of the marks of a node**, in front of marks that end it. -/
def ReadAs (n : Node) (c : Nat) (ms : List Placed) : Prop :=
  ∀ rest : List Placed, (∀ m ∈ rest.head?, n.Ends c m) →
    match n with
    | .value v => ∀ fits : Placed → Bool, (∀ m ∈ ms.head?, fits m = true) → Reading.value fits (ms ++ rest) = (v, rest)
    | .item v => ∀ vs, Reading.items c vs (ms ++ rest) = Reading.items c (vs ++ [v]) rest
    | .items us => ∀ vs, Reading.items c vs (ms ++ rest) = (vs ++ us, rest)
    | .entry key v => ∀ es, key ∉ Entries.keys es →
      Reading.entries c es (ms ++ rest) = Reading.entries c (es ++ [(key, v)]) rest
    | .entries fs => ∀ es, (∀ key ∈ Entries.keys fs, key ∉ Entries.keys es) →
      Reading.entries c es (ms ++ rest) = (es ++ fs, rest)

theorem ends_value_of_lt (v : Value) {c : Nat} {m : Placed} (h : m.column < c) : (Node.value v).Ends c m := by
  cases v with
  | scalar x => trivial
  | array vs => exact .inl h
  | object es => exact h

end Node

theorem Lays.opens {n : Node} {c : Nat} {ls : List Line} (h : Lays n c ls) :
    (ls = [] ∧ (n = .items [] ∨ n = .entries [])) ∨
    ∃ mark ms, ls.flatMap Line.marks = (c, mark) :: ms ∧ n.Opens mark := by
  induction h with
  | scalar c ht =>
    exact .inr ⟨_, _, by rw [List.flatMap_cons, Line.marks, marks_scalar ht, List.cons_append], _, rfl⟩
  | array hne _ ih =>
    rcases ih with ⟨-, h | h⟩ | ⟨mark, ms, h, ho⟩
    · exact absurd (Node.items.inj h) hne
    · cases h
    · exact .inr ⟨mark, ms, h, ho⟩
  | object hne _ ih =>
    rcases ih with ⟨-, h | h⟩ | ⟨mark, ms, h, ho⟩
    · cases h
    · exact absurd (Node.entries.inj h) hne
    · exact .inr ⟨mark, ms, h, ho⟩
  | noItems c => exact .inl ⟨rfl, .inl rfl⟩
  | items _ _ ih _ =>
    rcases ih with ⟨-, h | h⟩ | ⟨mark, ms, h, ho⟩
    · cases h
    · cases h
    · exact .inr ⟨mark, _, by rw [List.flatMap_append, h, List.cons_append], ho⟩
  | itemLeftOut c => exact .inr ⟨_, [], rfl, rfl⟩
  | itemInline _ _ => exact .inr ⟨_, _, by rw [List.flatMap_cons, Line.marks, marks_dash, List.cons_append], rfl⟩
  | itemBelow _ _ _ => exact .inr ⟨_, _, rfl, rfl⟩
  | noEntries c => exact .inl ⟨rfl, .inr rfl⟩
  | entries _ _ ih _ =>
    rcases ih with ⟨-, h | h⟩ | ⟨mark, ms, h, ho⟩
    · cases h
    · cases h
    · exact .inr ⟨mark, _, by rw [List.flatMap_append, h, List.cons_append], ho⟩
  | entryLeftOut c hq =>
    exact .inr ⟨_, _, by rw [List.flatMap_cons, Line.marks, marks_key hq, List.cons_append], _, _, rfl⟩
  | entryInline c n hq ht =>
    have htrim := Scalar.trimmed_of_writes ht
    exact .inr ⟨_, _, by rw [List.flatMap_cons, Line.marks, marks_key_value hq htrim, List.cons_append], _, _, rfl⟩
  | entryBelow hq _ _ _ =>
    exact .inr ⟨_, _, by rw [List.flatMap_cons, Line.marks, marks_key hq, List.cons_append], _, _, rfl⟩
  | entryLevel hq _ _ =>
    exact .inr ⟨_, _, by rw [List.flatMap_cons, Line.marks, marks_key hq, List.cons_append], _, _, rfl⟩

theorem Lays.head {n : Node} {c : Nat} {ls : List Line} (h : Lays n c ls) {ms : List Placed}
    (hms : ms.map Placed.seen = ls.flatMap Line.marks) : ∀ m ∈ ms.head?, m.column = c ∧ n.Opens m.mark := by
  intro m hm
  cases ms with
  | nil => cases hm
  | cons m' ms =>
    cases hm
    rcases h.opens with ⟨rfl, -⟩ | ⟨mark, ms', h, ho⟩
    · cases hms
    · rw [h, List.map_cons, List.cons.injEq, Placed.seen, Prod.mk.injEq] at hms
      exact ⟨hms.1.1, hms.1.2 ▸ ho⟩

theorem Lays.exists_cons {n : Node} {c : Nat} {ls : List Line} (h : Lays n c ls) (hitems : n ≠ .items [])
    (hentries : n ≠ .entries []) {ms : List Placed} (hms : ms.map Placed.seen = ls.flatMap Line.marks) :
    ∃ line mark ms', ms = ⟨line, c, mark⟩ :: ms' ∧ n.Opens mark := by
  rcases h.opens with ⟨-, h | h⟩ | ⟨mark, ms', h, ho⟩
  · exact absurd h hitems
  · exact absurd h hentries
  · rw [h] at hms
    obtain ⟨⟨line, _, _⟩, ms, rfl, ⟨⟩, -⟩ := List.map_eq_cons_iff.1 hms
    exact ⟨line, _, ms, rfl, ho⟩

/-! ### What ends a node -/

section

variable {c : Nat} {rest : List Placed}

theorem value_of_column_le (h : ∀ m ∈ rest.head?, m.column ≤ c) :
    Reading.value (underItem c) rest = (.null, rest) := by
  cases rest with
  | nil => exact Reading.value_nil
  | cons m rest =>
    have hm : m.column ≤ c := h m rfl
    exact Reading.value_of_not_fits (by simpa [underItem] using hm)

theorem value_of_ends_entry (h : ∀ m ∈ rest.head?, m.column < c ∨ m.column = c ∧ m.mark ≠ .item) :
    Reading.value (underKey c) rest = (.null, rest) := by
  cases rest with
  | nil => exact Reading.value_nil
  | cons m rest =>
    refine Reading.value_of_not_fits ?_
    rcases h m rfl with hm | ⟨hm, hmark⟩
    · simp only [underKey, Bool.or_eq_false_iff, decide_eq_false_iff_not, Bool.and_eq_false_iff, beq_eq_false_iff_ne]
      omega
    · simp [underKey, hm, hmark]

theorem items_of_ends (h : ∀ m ∈ rest.head?, m.column < c ∨ m.column = c ∧ m.mark ≠ .item) (vs : List Value) :
    Reading.items c vs rest = (vs, rest) := by
  cases rest with
  | nil => exact Reading.items_nil
  | cons m rest =>
    rcases h m rfl with hm | ⟨-, hmark⟩
    · exact Reading.items_of_column_ne (Nat.ne_of_lt hm)
    · obtain ⟨line, column, mark⟩ := m
      cases mark with
      | item => exact absurd rfl hmark
      | entry key t => exact Reading.items_entry
      | text t => exact Reading.items_text

theorem entries_of_column_lt (h : ∀ m ∈ rest.head?, m.column < c) (es : Entries) :
    Reading.entries c es rest = (es, rest) := by
  cases rest with
  | nil => exact Reading.entries_nil
  | cons m rest => exact Reading.entries_of_column_ne (Nat.ne_of_lt (h m rfl))

end

/-! ### Items and entries -/

theorem keyName_of_writes {key : String} {q : List Char} (hq : Quoted.Writes key.toList q) :
    keyName q = key.toList := by
  rw [keyName, Quoted.unquote?_of_writes hq, Option.getD_some]

theorem keyName_ne_nil {key : String} {q : List Char} (hkey : key ≠ "") (hq : Quoted.Writes key.toList q) :
    keyName q ≠ [] := by
  rw [keyName_of_writes hq]
  exact fun h => hkey (String.toList_eq_nil_iff.1 h)

theorem readAs_item {v : Value} {c c' line : Nat} {ms : List Placed} (hc : c < c')
    (hms : ∀ m ∈ ms.head?, m.column = c') (h : (Node.value v).ReadAs c' ms) :
    (Node.item v).ReadAs c (⟨line, c, .item⟩ :: ms) := by
  intro rest hends vs
  have hread := h rest (fun m hm => Node.ends_value_of_lt v (Nat.lt_of_le_of_lt (hends m hm) hc)) (underItem c)
    fun m hm => by rw [underItem, hms m hm, decide_eq_true hc]
  rw [List.cons_append, Reading.items_following, hread]

theorem readAs_entry {key : String} {v : Value} {q : List Char} {c c' line : Nat} {ms : List Placed} (hkey : key ≠ "")
    (hq : Quoted.Writes key.toList q) (hms : ∀ m ∈ ms.head?, underKey c m = true)
    (hends : ∀ m, (Node.entry key v).Ends c m → (Node.value v).Ends c' m) (h : (Node.value v).ReadAs c' ms) :
    (Node.entry key v).ReadAs c (⟨line, c, .entry q []⟩ :: ms) := by
  intro rest hrest es hmem
  have hread := h rest (fun m hm => hends m (hrest m hm)) (underKey c) hms
  rw [List.cons_append, Reading.entries_following (keyName_ne_nil hkey hq), hread, keyName_of_writes hq,
    String.ofList_toList, Entries.put_of_not_mem hmem]

/-! ### Layouts -/

/-- **The marks of a layout are read as what they were laid out for**, and nothing behind them is taken. -/
theorem Lays.readAs {n : Node} {c : Nat} {ls : List Line} (h : Lays n c ls) : n.Expressible →
    ∀ ms : List Placed, ms.map Placed.seen = ls.flatMap Line.marks → n.ReadAs c ms := by
  induction h with
  | scalar c ht =>
    intro _ ms hms rest _ fits hfits
    rw [List.flatMap_cons, Line.marks, marks_scalar ht] at hms
    obtain ⟨⟨line, _, _⟩, rfl, ⟨⟩⟩ := List.map_eq_singleton_iff.1 hms
    rw [List.cons_append, Reading.value_text (hfits _ rfl), Scalar.ofText_of_writes ht, List.nil_append]
  | @array vs c ls hne h ih =>
    intro hv ms hms rest hrest fits hfits
    cases hv with
    | array _ hv =>
      have hread := ih hv ms hms rest hrest []
      obtain ⟨line, mark, ms, rfl, rfl⟩ := h.exists_cons (fun h => hne (Node.items.inj h)) (fun h => by cases h) hms
      rw [List.cons_append] at hread ⊢
      rw [Reading.value_item (hfits _ rfl), hread, List.nil_append]
  | @object es c ls hne h ih =>
    intro hv ms hms rest hrest fits hfits
    cases hv with
    | object _ hkeys hname hv =>
      have hread := ih ⟨hkeys, hname, hv⟩ ms hms rest hrest [] (by simp [Entries.keys])
      obtain ⟨line, mark, ms, rfl, key, t, rfl⟩ :=
        h.exists_cons (fun h => by cases h) (fun h => hne (Node.entries.inj h)) hms
      rw [List.cons_append] at hread ⊢
      rw [Reading.value_entry (hfits _ rfl), hread, List.nil_append]
  | noItems c =>
    intro _ ms hms rest hrest vs
    rw [List.map_eq_nil_iff.1 hms, List.nil_append, items_of_ends hrest, List.append_nil]
  | @items v vs c ls ls' h h' ih ih' =>
    intro hv ms hms rest hrest us
    obtain ⟨hv, hvs⟩ := List.forall_mem_cons.1 hv
    rw [List.flatMap_append, List.map_eq_append_iff] at hms
    obtain ⟨ms, ms', rfl, hms, hms'⟩ := hms
    have hends : ∀ m ∈ (ms' ++ rest).head?, (Node.item v).Ends c m := by
      intro m hm
      cases ms' with
      | nil => rcases hrest m hm with h | h <;> simp only [Node.Ends] <;> omega
      | cons m' ms' => exact Nat.le_of_eq (h'.head hms' m hm).1
    rw [List.append_assoc, ih hv ms hms _ hends, ih' hvs ms' hms' rest hrest, List.append_assoc]
    rfl
  | itemLeftOut c =>
    intro _ ms hms rest hrest vs
    obtain ⟨⟨line, _, _⟩, rfl, ⟨⟩⟩ := List.map_eq_singleton_iff.1 hms
    rw [List.cons_append, Reading.items_following, List.nil_append, value_of_column_le hrest]
  | @itemInline v c n t ls h ih =>
    intro hv ms hms
    rw [List.flatMap_cons, Line.marks, marks_dash, List.cons_append, List.map_eq_cons_iff] at hms
    obtain ⟨⟨line, _, _⟩, ms, rfl, ⟨⟩, hms⟩ := hms
    exact readAs_item (by omega) (fun m hm => (h.head hms m hm).1) (ih hv ms hms)
  | @itemBelow v c c' ls hc h ih =>
    intro hv ms hms
    have hdash : Line.marks ⟨c, ['-']⟩ = [(c, .item)] := rfl
    rw [List.flatMap_cons, hdash, List.cons_append, List.map_eq_cons_iff] at hms
    obtain ⟨⟨line, _, _⟩, ms, rfl, ⟨⟩, hms⟩ := hms
    exact readAs_item hc (fun m hm => (h.head hms m hm).1) (ih hv ms hms)
  | noEntries c =>
    intro _ ms hms rest hrest es _
    rw [List.map_eq_nil_iff.1 hms, List.nil_append, entries_of_column_lt hrest, List.append_nil]
  | @entries key v es c ls ls' h h' ih ih' =>
    rintro ⟨hkeys, hname, hv⟩ ms hms rest hrest fs hfs
    rw [Entries.keys, List.map_cons] at hkeys hname hfs
    rw [List.nodup_cons] at hkeys
    rw [List.mem_cons, not_or] at hname
    obtain ⟨hv, hvs⟩ := List.forall_mem_cons.1 hv
    obtain ⟨hkey, hfs⟩ := List.forall_mem_cons.1 hfs
    rw [List.flatMap_append, List.map_eq_append_iff] at hms
    obtain ⟨ms, ms', rfl, hms, hms'⟩ := hms
    have hends : ∀ m ∈ (ms' ++ rest).head?, (Node.entry key v).Ends c m := by
      intro m hm
      cases ms' with
      | nil => exact .inl (hrest m hm)
      | cons m' ms' =>
        obtain ⟨hcolumn, key', t, hmark⟩ := h'.head hms' m hm
        exact .inr ⟨hcolumn, by simp [hmark]⟩
    -- the entries behind have other keys than those read, and than this one
    have hnew : ∀ key' ∈ Entries.keys es, key' ∉ Entries.keys (fs ++ [(key, v)]) := by
      intro key' hkey'
      rw [Entries.keys, List.map_append, List.mem_append, not_or]
      exact ⟨hfs key' hkey', fun h => hkeys.1 (List.mem_singleton.1 h ▸ hkey')⟩
    rw [List.append_assoc, ih ⟨Ne.symm hname.1, hv⟩ ms hms _ hends fs hkey,
      ih' ⟨hkeys.2, hname.2, hvs⟩ ms' hms' rest hrest _ hnew, List.append_assoc]
    rfl
  | @entryLeftOut key q c hq =>
    intro hv ms hms rest hrest es hes
    rw [List.flatMap_cons, Line.marks, marks_key hq] at hms
    obtain ⟨⟨line, _, _⟩, rfl, ⟨⟩⟩ := List.map_eq_singleton_iff.1 hms
    rw [List.cons_append, Reading.entries_following (keyName_ne_nil hv.1 hq), List.nil_append,
      value_of_ends_entry hrest, keyName_of_writes hq, String.ofList_toList, Entries.put_of_not_mem hes]
  | @entryInline key x q t c n hq ht =>
    intro hv ms hms rest hrest es hes
    have htrim := Scalar.trimmed_of_writes ht
    rw [List.flatMap_cons, Line.marks, marks_key_value hq htrim] at hms
    obtain ⟨⟨line, _, _⟩, rfl, ⟨⟩⟩ := List.map_eq_singleton_iff.1 hms
    have hne : t.isEmpty = false := by simpa using htrim.ne_nil
    rw [List.cons_append, Reading.entries_inline (keyName_ne_nil hv.1 hq) hne, List.nil_append,
      Scalar.ofText_of_writes ht, keyName_of_writes hq, String.ofList_toList, Entries.put_of_not_mem hes]
  | @entryBelow key v q c c' ls hq hc h ih =>
    intro hv ms hms
    rw [List.flatMap_cons, Line.marks, marks_key hq, List.cons_append, List.map_eq_cons_iff] at hms
    obtain ⟨⟨line, _, _⟩, ms, rfl, ⟨⟩, hms⟩ := hms
    refine readAs_entry hv.1 hq (fun m hm => ?_) (fun m hm => Node.ends_value_of_lt v ?_) (ih hv.2 ms hms)
    · simp [underKey, (h.head hms m hm).1, hc]
    · rcases hm with hm | hm <;> omega
  | @entryLevel key vs q c ls hq h ih =>
    intro hv ms hms
    rw [List.flatMap_cons, Line.marks, marks_key hq, List.cons_append, List.map_eq_cons_iff] at hms
    obtain ⟨⟨line, _, _⟩, ms, rfl, ⟨⟩, hms⟩ := hms
    refine readAs_entry hv.1 hq (fun m hm => ?_) (fun m hm => hm) (ih hv.2 ms hms)
    obtain ⟨hcolumn, hmark⟩ := h.head hms m hm
    simp [underKey, hcolumn, show m.mark = .item from hmark]

/-! ## Documents -/

theorem exists_content : ∀ (ls : List Line) (number : Nat) (started : Bool), (∀ l ∈ ls, Written l.content) →
    ∃ ms, Reading.content number started (ls.map Line.text) = (ms, none) ∧
      ms.map Placed.seen = ls.flatMap Line.marks
  | [], _, _, _ => ⟨[], rfl, rfl⟩
  | l :: ls, number, started, h => by
    obtain ⟨hl, hls⟩ := List.forall_mem_cons.1 h
    obtain ⟨ms, hread, hms⟩ := exists_content ls (number + 1) true hls
    refine ⟨l.placed number ++ ms, ?_, ?_⟩
    · rw [List.map_cons, Reading.content, Line.text, hl.ofText_replicate]
      simp [hl.isDocumentEnd_eq_false, hl.isDocumentStart_eq_false, hread]
    · rw [List.map_append, hms, List.flatMap_cons, Line.placed, List.map_map]
      simp [Function.comp_def, Placed.seen]

def textOf (ls : List Line) : String :=
  String.ofList (ls.flatMap fun l => l.text ++ ['\n'])

theorem lines_textOf {ls : List Line} (h : ∀ l ∈ ls, Written l.content) :
    Text.lines (textOf ls).toList = ls.map Line.text := by
  rw [textOf, String.toList_ofList]
  induction ls with
  | nil => rfl
  | cons l ls ih =>
    obtain ⟨hl, hls⟩ := List.forall_mem_cons.1 h
    rw [List.flatMap_cons, List.append_assoc, List.singleton_append, Line.text, hl.lines_append, ih hls, List.map_cons,
      Line.text]

/-- **A layout is read as its value**, in any text with its lines. -/
theorem LaysDocument.reading_eq {v : Value} {ls : List Line} (hv : v = .object [] ∨ v.Expressible)
    (h : LaysDocument v ls) {cs : List Char} (hcs : Text.lines cs = ls.map Line.text) :
    Reading.document cs = .ok v := by
  rcases h with ⟨rfl, rfl⟩ | ⟨c, h⟩
  · rw [Reading.document, hcs]; rfl
  · have hv : v.Expressible := by
      rcases hv with rfl | hv
      · cases h; contradiction
      · exact hv
    obtain ⟨ms, hcontent, hms⟩ := exists_content ls 1 false h.written
    have hread := h.readAs hv ms hms [] nofun (fun _ => true) fun _ _ => rfl
    obtain ⟨line, mark, ms, rfl, -⟩ := h.exists_cons nofun nofun hms
    rw [List.append_nil] at hread
    rw [Reading.document, hcs]
    simp [hcontent, Reading.root, hread, Reading.verdict]

end Yaml

/-- **Decoding undoes writing.**  Every value that can be expressed has layouts, and whichever is chosen, any text with
its lines decodes to that value, with its keys in their order. -/
theorem decodeYaml_layout (v : Value) (hv : v = .object [] ∨ v.Expressible) :
    (∃ ls, Yaml.LaysDocument v ls) ∧
    ∀ ls, Yaml.LaysDocument v ls →
      decodeYaml (Yaml.textOf ls) = .ok v ∧
      ∀ text : String, Text.lines text.toList = ls.map Yaml.Line.text → decodeYaml text = .ok v := by
  have hdecode : ∀ ls, Yaml.LaysDocument v ls → ∀ text : String,
      Text.lines text.toList = ls.map Yaml.Line.text → decodeYaml text = .ok v := by
    intro ls hls text htext
    have hread := (Yaml.document_eq_reading text.toList).trans (hls.reading_eq hv htext)
    cases hd : Yaml.document text.toList with
    | ok u =>
      rw [hd] at hread
      cases hread
      rw [decodeYaml, hd]
    | error halt =>
      rw [hd] at hread
      cases hread
  refine ⟨?_, fun ls hls => ⟨hdecode ls hls _ (Yaml.lines_textOf ?_), hdecode ls hls⟩⟩
  · rcases hv with rfl | hv
    · exact ⟨[], .inl ⟨rfl, rfl⟩⟩
    · obtain ⟨ls, hls⟩ := Yaml.exists_lays hv 0
      exact ⟨ls, .inr ⟨0, hls⟩⟩
  · rcases hls with ⟨-, rfl⟩ | ⟨c, hls⟩
    · simp
    · exact hls.written

/-- A layout with several choices in it: both quotes, a sequence at the column of its key, an item that opens another
on its line, and a value that is left out. -/
theorem decodeYaml_layout_nested :
    decodeYaml (Yaml.textOf [⟨2, ['"', 'a', ':', ' ', '#', '"', ':']⟩,
      ⟨2, ['-', ' ', '-', ' ', '\'', '\'', '\'', '\'']⟩, ⟨4, ['-']⟩]) =
      .ok (.object [("a: #", .array [.array [.string "'", .null]])]) := by
  have hkey : Quoted.Writes "a: #".toList ['"', 'a', ':', ' ', '#', '"'] :=
    .double (.plain (by decide) (.plain (by decide) (.plain (by decide) (.plain (by decide) .nil))))
  have hstring : Quoted.Writes "'".toList ['\'', '\'', '\'', '\''] := .single (by decide)
  have hinner : (Value.array [.string "'", .null]).Expressible := .array nofun fun v hv => by
    simp only [List.mem_cons, List.not_mem_nil, or_false] at hv
    rcases hv with rfl | rfl
    · exact .scalar nofun
    · exact .scalar nofun
  have houter : (Value.array [.array [.string "'", .null]]).Expressible := .array nofun (by simpa using hinner)
  have hv : (Value.object [("a: #", .array [.array [.string "'", .null]])]).Expressible :=
    .object nofun (by decide) (by decide) (by simpa using houter)
  have hitems : Yaml.Lays (.value (.array [.string "'", .null])) 4
      [⟨4, ['-', ' ', '\'', '\'', '\'', '\'']⟩, ⟨4, ['-']⟩] :=
    .array nofun (.items (.itemInline (n := 0) (.scalar 6 (.string hstring))) (.items (.itemLeftOut 4) (.noItems 4)))
  have houterItems : Yaml.Lays (.value (.array [.array [.string "'", .null]])) 2
      [⟨2, ['-', ' ', '-', ' ', '\'', '\'', '\'', '\'']⟩, ⟨4, ['-']⟩] :=
    .array nofun (.items (.itemInline (n := 0) hitems) (.noItems 2))
  exact ((decodeYaml_layout _ (.inr hv)).2 _
    (.inr ⟨2, .object nofun (.entries (.entryLevel hkey houterItems) (.noEntries 2))⟩)).1

end DocQuery
