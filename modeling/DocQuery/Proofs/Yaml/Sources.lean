import DocQuery.Proofs.Value.Written
import DocQuery.Proofs.Yaml.Reading
/-!
# What the marks of a block document write

A block at a column is a run of entries or items at that column.  Each entry writes one pair, whether its value stands
on its line, follows as a block or is missing, and a key that is there already is written once more (`Spells`).  Reading
finds what the marks spell, and nothing else (`exists_spells_value`).
-/
namespace DocQuery.Yaml

open Reading (underItem underKey)

/-- **What marks can be asked for**: the value that follows, or the rest of a block at a column. -/
inductive Portion where
  | value (fits : Placed → Bool) (source : Source)
  | entries (column : Nat) (pairs : List (String × Source))
  | items (column : Nat) (sources : List Source)

/-- **What the marks in front spell**, and the marks behind them. -/
inductive Spells : Portion → List Placed → List Placed → Prop
  | nothing {fits : Placed → Bool} {ms : List Placed} (h : ∀ m ∈ ms.head?, fits m = false) :
    Spells (.value fits (.scalar .null)) ms ms
  | text {fits : Placed → Bool} {line column : Nat} {cs : List Char} (h : fits ⟨line, column, .text cs⟩ = true)
    (ms : List Placed) : Spells (.value fits (.scalar (.ofText cs))) (⟨line, column, .text cs⟩ :: ms) ms
  | sequence {fits : Placed → Bool} {line column : Nat} {sources : List Source} {ms rest : List Placed}
    (h : fits ⟨line, column, .item⟩ = true)
    (hitems : Spells (.items column sources) (⟨line, column, .item⟩ :: ms) rest) :
    Spells (.value fits (.array sources)) (⟨line, column, .item⟩ :: ms) rest
  | mapping {fits : Placed → Bool} {line column : Nat} {key text : List Char} {pairs : List (String × Source)}
    {ms rest : List Placed} (h : fits ⟨line, column, .entry key text⟩ = true)
    (hentries : Spells (.entries column pairs) (⟨line, column, .entry key text⟩ :: ms) rest) :
    Spells (.value fits (.object pairs)) (⟨line, column, .entry key text⟩ :: ms) rest
  | noItem {column : Nat} {ms : List Placed} (h : ∀ m ∈ ms.head?, m.mark = .item → m.column ≠ column) :
    Spells (.items column []) ms ms
  | item {column : Nat} {source : Source} {sources : List Source} {ms mid rest : List Placed} (line : Nat)
    (hvalue : Spells (.value (underItem column) source) ms mid) (hmore : Spells (.items column sources) mid rest) :
    Spells (.items column (source :: sources)) (⟨line, column, .item⟩ :: ms) rest
  | noEntry {column : Nat} {ms : List Placed}
    (h : ∀ m ∈ ms.head?, ∀ key text, m.mark = .entry key text → m.column = column → keyName key = []) :
    Spells (.entries column []) ms ms
  | inline {column : Nat} {key text : List Char} {pairs : List (String × Source)} {ms rest : List Placed} (line : Nat)
    (hkey : keyName key ≠ []) (htext : text ≠ []) (hmore : Spells (.entries column pairs) ms rest) :
    Spells (.entries column ((String.ofList (keyName key), .scalar (.ofText text)) :: pairs))
      (⟨line, column, .entry key text⟩ :: ms) rest
  | following {column : Nat} {key : List Char} {source : Source} {pairs : List (String × Source)}
    {ms mid rest : List Placed} (line : Nat) (hkey : keyName key ≠ [])
    (hvalue : Spells (.value (underKey column) source) ms mid) (hmore : Spells (.entries column pairs) mid rest) :
    Spells (.entries column ((String.ofList (keyName key), source) :: pairs)) (⟨line, column, .entry key []⟩ :: ms) rest

def Portion.Found : Portion → List Placed → List Placed → Prop
  | .value fits source, ms, rest => Reading.value fits ms = (source.value, rest)
  | .entries column pairs, ms, rest => ∀ written : List (String × Source),
    Reading.entries column (Entries.ofPairs (written.map (Prod.map id Source.value))) ms =
      (Entries.ofPairs ((written ++ pairs).map (Prod.map id Source.value)), rest)
  | .items column sources, ms, rest => ∀ written : List Source,
    Reading.items column (written.map Source.value) ms = ((written ++ sources).map Source.value, rest)

variable {portion : Portion} {fits : Placed → Bool} {source : Source} {ms rest : List Placed}

theorem ofPairs_concat_source (written : List (String × Source)) (name : String) (source : Source) :
    Entries.ofPairs ((written ++ [(name, source)]).map (Prod.map id Source.value)) =
      (Entries.ofPairs (written.map (Prod.map id Source.value))).put name source.value := by
  rw [List.map_append, List.map_singleton, Entries.ofPairs_concat]
  rfl

theorem items_of_head {column : Nat} (vs : List Value)
    (h : ∀ m ∈ ms.head?, m.mark = .item → m.column ≠ column) : Reading.items column vs ms = (vs, ms) := by
  cases ms with
  | nil => exact Reading.items_nil
  | cons m ms =>
    obtain ⟨line, c, mark⟩ := m
    cases mark with
    | item => exact Reading.items_of_column_ne (h _ rfl rfl)
    | entry key text => exact Reading.items_entry
    | text cs => exact Reading.items_text

theorem entries_of_head {column : Nat} (es : Entries)
    (h : ∀ m ∈ ms.head?, ∀ key text, m.mark = .entry key text → m.column = column → keyName key = []) :
    Reading.entries column es ms = (es, ms) := by
  cases ms with
  | nil => exact Reading.entries_nil
  | cons m ms =>
    obtain ⟨line, c, mark⟩ := m
    cases mark with
    | item => exact Reading.entries_item
    | entry key text =>
      by_cases hc : c = column
      · exact Reading.entries_of_keyName_nil (h _ rfl key text rfl hc)
      · exact Reading.entries_of_column_ne hc
    | text cs => exact Reading.entries_text

/-- **What marks spell is read.** -/
theorem Spells.found (h : Spells portion ms rest) : portion.Found ms rest := by
  -- a block starts with nothing read before, and each of its parts goes behind those in front
  induction h with
  | @nothing fits ms h =>
    cases ms with
    | nil => exact Reading.value_nil
    | cons m ms => exact Reading.value_of_not_fits (h m rfl)
  | text h ms => exact Reading.value_text h
  | sequence h hitems ih =>
    have hread := ih []
    rw [List.map_nil, List.nil_append] at hread
    rw [Portion.Found, Reading.value_item h, hread, Source.value, Source.values_eq]
  | mapping h hentries ih =>
    have hread := ih []
    rw [List.map_nil, List.nil_append] at hread
    have hnil : Entries.ofPairs [] = [] := rfl
    rw [hnil] at hread
    rw [Portion.Found, Reading.value_entry h, hread, Source.value, Source.valuePairs_eq]
  | noItem h =>
    intro written
    rw [List.append_nil, items_of_head _ h]
  | @item column source sources ms mid rest line hvalue hmore ihvalue ihmore =>
    intro written
    have hread := ihmore (written ++ [source])
    rw [List.map_append, List.map_singleton, List.append_assoc, List.singleton_append] at hread
    rw [Reading.items_following, ihvalue, hread]
  | noEntry h =>
    intro written
    rw [List.append_nil, entries_of_head _ h]
  | @inline column key text pairs ms rest line hkey htext hmore ih =>
    intro written
    have hread := ih (written ++ [(String.ofList (keyName key), .scalar (.ofText text))])
    rw [ofPairs_concat_source, List.append_assoc, List.singleton_append, Source.value] at hread
    rw [Reading.entries_inline hkey (by simpa using htext), hread]
  | @following column key source pairs ms mid rest line hkey hvalue hmore ihvalue ihmore =>
    intro written
    have hread := ihmore (written ++ [(String.ofList (keyName key), source)])
    rw [ofPairs_concat_source, List.append_assoc, List.singleton_append] at hread
    rw [Reading.entries_following hkey, ihvalue, hread]

/-! ## Marks spell something -/

theorem Spells.length_le (h : Spells portion ms rest) : rest.length ≤ ms.length := by
  induction h with
  | nothing => exact Nat.le_refl _
  | text h ms => exact Nat.le_succ _
  | sequence h hitems ih => exact ih
  | mapping h hentries ih => exact ih
  | noItem h => exact Nat.le_refl _
  | item line hvalue hmore ihvalue ihmore => exact Nat.le_succ_of_le (Nat.le_trans ihmore ihvalue)
  | noEntry h => exact Nat.le_refl _
  | inline line hkey htext hmore ih => exact Nat.le_succ_of_le ih
  | following line hkey hvalue hmore ihvalue ihmore => exact Nat.le_succ_of_le (Nat.le_trans ihmore ihvalue)

section

variable {n : Nat} (hvalue : ∀ ms, ms.length < n → ∀ fits, ∃ source rest, Spells (.value fits source) ms rest)
include hvalue

theorem exists_spells_items (column : Nat) (ms : List Placed) (hn : ms.length ≤ n) :
    ∃ sources rest, Spells (.items column sources) ms rest := by
  by_cases hhead : ∃ line ms', ms = ⟨line, column, .item⟩ :: ms'
  · obtain ⟨line, ms', rfl⟩ := hhead
    -- the value takes marks away or leaves them all, so the items behind it are found by recursion
    obtain ⟨source, mid, hsource⟩ := hvalue ms' hn (underItem column)
    have hmid : mid.length < ms'.length + 1 := Nat.lt_succ_of_le hsource.length_le
    obtain ⟨sources, rest, hsources⟩ := exists_spells_items column mid (Nat.le_trans (Nat.le_of_lt hmid) hn)
    exact ⟨_, _, .item line hsource hsources⟩
  · refine ⟨[], ms, .noItem fun m hm hmark hcolumn => hhead ?_⟩
    obtain ⟨ms', rfl⟩ := List.head?_eq_some_iff.1 hm
    obtain ⟨line, c, mark⟩ := m
    exact ⟨line, ms', by rw [← hcolumn, ← hmark]⟩
termination_by ms.length

theorem exists_spells_entries (column : Nat) (ms : List Placed) (hn : ms.length ≤ n) :
    ∃ pairs rest, Spells (.entries column pairs) ms rest := by
  by_cases hhead : ∃ line key text ms', ms = ⟨line, column, .entry key text⟩ :: ms' ∧ keyName key ≠ []
  · obtain ⟨line, key, text, ms', rfl, hkey⟩ := hhead
    by_cases htext : text = []
    · subst htext
      obtain ⟨source, mid, hsource⟩ := hvalue ms' hn (underKey column)
      have hmid : mid.length < ms'.length + 1 := Nat.lt_succ_of_le hsource.length_le
      obtain ⟨pairs, rest, hpairs⟩ := exists_spells_entries column mid (Nat.le_trans (Nat.le_of_lt hmid) hn)
      exact ⟨_, _, .following line hkey hsource hpairs⟩
    · obtain ⟨pairs, rest, hpairs⟩ := exists_spells_entries column ms' (Nat.le_of_lt hn)
      exact ⟨_, _, .inline line hkey htext hpairs⟩
  · refine ⟨[], ms, .noEntry fun m hm key text hmark hcolumn => ?_⟩
    obtain ⟨ms', rfl⟩ := List.head?_eq_some_iff.1 hm
    obtain ⟨line, c, mark⟩ := m
    by_contra hkey
    exact hhead ⟨line, key, text, ms', by rw [← hcolumn, ← hmark], hkey⟩
termination_by ms.length

end

/-- **Whatever the marks are, they spell a value.** -/
theorem exists_spells (fits : Placed → Bool) (ms : List Placed) : ∃ source rest, Spells (.value fits source) ms rest := by
  have ih : ∀ ms', ms'.length < ms.length → ∀ fits, ∃ source rest, Spells (.value fits source) ms' rest :=
    fun ms' _ fits => exists_spells fits ms'
  by_cases hhead : ∀ m ∈ ms.head?, fits m = false
  · exact ⟨_, ms, .nothing hhead⟩
  · cases ms with
    | nil => exact absurd nofun hhead
    | cons m ms =>
      have hfits : fits m = true := by simpa using hhead
      obtain ⟨line, column, mark⟩ := m
      cases mark with
      | item =>
        obtain ⟨sources, rest, hitems⟩ := exists_spells_items ih column _ (Nat.le_refl _)
        exact ⟨_, rest, .sequence hfits hitems⟩
      | entry key text =>
        obtain ⟨pairs, rest, hentries⟩ := exists_spells_entries ih column _ (Nat.le_refl _)
        exact ⟨_, rest, .mapping hfits hentries⟩
      | text cs => exact ⟨_, ms, .text hfits ms⟩
termination_by ms.length

theorem exists_spells_value (fits : Placed → Bool) (ms : List Placed) : ∃ source,
    (Reading.value fits ms).1 = source.value ∧ Spells (.value fits source) ms (Reading.value fits ms).2 := by
  obtain ⟨source, rest, h⟩ := exists_spells fits ms
  have hfound : Reading.value fits ms = (source.value, rest) := h.found
  rw [hfound]
  exact ⟨source, rfl, h⟩

end DocQuery.Yaml
