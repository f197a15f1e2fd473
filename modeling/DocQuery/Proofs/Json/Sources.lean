import DocQuery.Decode
import DocQuery.Proofs.Json.WrittenValues
import DocQuery.Proofs.Value.Written
/-!
# What a JSON text writes

An object has all the members that stand between its braces, also under a key that stands there twice.  What the reader
makes of a text is what the text spells (`exists_spells`), and a text spells one source only (`Spells.alone`).
-/
namespace DocQuery.Json

/-- **What a text can be asked for**: a value, or the parts of a container up to its closing bracket, where a comma
stands in front of each but the `first`. -/
inductive Portion where
  | value (source : Source)
  | items (first : Bool) (sources : List Source)
  | members (first : Bool) (pairs : List (String × Source))

def Separated (first : Bool) (cs cs' : List Char) : Prop :=
  if first then cs' = cs else skipSpace cs = ',' :: cs'

/-- **What the text in front spells**, and the text behind it. -/
inductive Spells : Portion → List Char → List Char → Prop
  | scalar {x : Scalar} {cs rest : List Char} (h : value 0 cs = .ok (.scalar x, rest)) :
    Spells (.value (.scalar x)) cs rest
  | array {sources : List Source} {cs cs' rest : List Char} (hopen : skipSpace cs = '[' :: cs')
    (hitems : Spells (.items true sources) cs' rest) : Spells (.value (.array sources)) cs rest
  | object {pairs : List (String × Source)} {cs cs' rest : List Char} (hopen : skipSpace cs = '{' :: cs')
    (hmembers : Spells (.members true pairs) cs' rest) : Spells (.value (.object pairs)) cs rest
  | endItems {first : Bool} {cs rest : List Char} (hclose : skipSpace cs = ']' :: rest) :
    Spells (.items first []) cs rest
  | item {first : Bool} {source : Source} {sources : List Source} {cs cs' mid rest : List Char}
    (hcomma : Separated first cs cs') (hvalue : Spells (.value source) cs' mid)
    (hmore : Spells (.items false sources) mid rest) : Spells (.items first (source :: sources)) cs rest
  | endMembers {first : Bool} {cs rest : List Char} (hclose : skipSpace cs = '}' :: rest) :
    Spells (.members first []) cs rest
  | member {first : Bool} {key : String} {source : Source} {pairs : List (String × Source)}
    {cs cs' text behind written mid rest : List Char} (hcomma : Separated first cs cs')
    (hquote : skipSpace cs' = '"' :: text) (hkey : string text = .ok (key, behind))
    (hcolon : skipSpace behind = ':' :: written) (hvalue : Spells (.value source) written mid)
    (hmore : Spells (.members false pairs) mid rest) : Spells (.members first ((key, source) :: pairs)) cs rest

variable {source : Source} {cs rest : List Char}

theorem Spells.of_skipSpace (h : Spells (.value source) (skipSpace cs) rest) : Spells (.value source) cs rest := by
  have hskip : skipSpace (skipSpace cs) = skipSpace cs := List.dropWhile_idempotent isSpace cs
  cases h with
  | scalar h => exact .scalar (by rwa [value_skipSpace] at h)
  | array hopen hitems => exact .array (by rwa [hskip] at hopen) hitems
  | object hopen hmembers => exact .object (by rwa [hskip] at hopen) hmembers

/-! ## What the reader can do -/

theorem bind_eq_ok {α β : Type} {read : Except Halt α} {next : α → Except Halt β} {b : β}
    (h : (read >>= next) = .ok b) : ∃ a, read = .ok a ∧ next a = .ok b := by
  cases read with
  | error halt => cases h
  | ok a => exact ⟨a, rfl, h⟩

section Parts

variable {item : List Char → Except Halt (Value × List Char)} {fuel : Nat} {vs : List Value} {m : String × Value}
  {ms : List (String × Value)}

theorem moreItems_eq_ok (h : moreItems item fuel cs = .ok (vs, rest)) :
    (vs = [] ∧ skipSpace cs = ']' :: rest) ∨ ∃ fuel' cs' v mid vs', vs = v :: vs' ∧ fuel = fuel' + 1 ∧
      skipSpace cs = ',' :: cs' ∧ item (skipSpace cs') = .ok (v, mid) ∧ moreItems item fuel' mid = .ok (vs', rest) := by
  cases fuel with
  | zero => cases h
  | succ fuel =>
    rw [moreItems] at h
    split at h
    · cases h
    · rename_i hclose
      cases h
      exact .inl ⟨rfl, hclose⟩
    · rename_i cs' hcomma
      split at h
      · cases h
      · cases h
      · obtain ⟨⟨v, mid⟩, hv, h⟩ := bind_eq_ok h
        obtain ⟨⟨vs', rest'⟩, hvs, h⟩ := bind_eq_ok h
        cases h
        exact .inr ⟨fuel, cs', v, mid, vs', rfl, rfl, hcomma, hv, hvs⟩
    · cases h

theorem items_eq_ok (h : items item cs = .ok (vs, rest)) :
    (vs = [] ∧ skipSpace cs = ']' :: rest) ∨ ∃ v mid vs', vs = v :: vs' ∧ item (skipSpace cs) = .ok (v, mid) ∧
      moreItems item mid.length.succ mid = .ok (vs', rest) := by
  rw [items] at h
  split at h
  · cases h
  · rename_i hclose
    cases h
    exact .inl ⟨rfl, hclose⟩
  · obtain ⟨⟨v, mid⟩, hv, h⟩ := bind_eq_ok h
    obtain ⟨⟨vs', rest'⟩, hvs, h⟩ := bind_eq_ok h
    cases h
    exact .inr ⟨v, mid, vs', rfl, hv, hvs⟩

theorem member_eq_ok (h : member item cs = .ok (m, rest)) :
    ∃ behind written, string cs = .ok (m.1, behind) ∧ skipSpace behind = ':' :: written ∧
      item written = .ok (m.2, rest) := by
  rw [member] at h
  obtain ⟨⟨key, behind⟩, hkey, h⟩ := bind_eq_ok h
  dsimp only at h
  split at h
  · cases h
  · rename_i written hcolon
    obtain ⟨⟨v, rest'⟩, hv, h⟩ := bind_eq_ok h
    cases h
    exact ⟨behind, written, hkey, hcolon, hv⟩
  · cases h

theorem moreMembers_eq_ok (h : moreMembers item fuel cs = .ok (ms, rest)) :
    (ms = [] ∧ skipSpace cs = '}' :: rest) ∨ ∃ fuel' cs' text m mid ms', ms = m :: ms' ∧ fuel = fuel' + 1 ∧
      skipSpace cs = ',' :: cs' ∧ skipSpace cs' = '"' :: text ∧ member item text = .ok (m, mid) ∧
      moreMembers item fuel' mid = .ok (ms', rest) := by
  cases fuel with
  | zero => cases h
  | succ fuel =>
    rw [moreMembers] at h
    split at h
    · cases h
    · rename_i hclose
      cases h
      exact .inl ⟨rfl, hclose⟩
    · rename_i cs' hcomma
      split at h
      · cases h
      · rename_i text hquote
        obtain ⟨⟨m, mid⟩, hm, h⟩ := bind_eq_ok h
        obtain ⟨⟨ms', rest'⟩, hms, h⟩ := bind_eq_ok h
        cases h
        exact .inr ⟨fuel, cs', text, m, mid, ms', rfl, rfl, hcomma, hquote, hm, hms⟩
      · cases h
      · cases h
    · cases h

theorem members_eq_ok (h : members item cs = .ok (ms, rest)) :
    (ms = [] ∧ skipSpace cs = '}' :: rest) ∨ ∃ text m mid ms', ms = m :: ms' ∧ skipSpace cs = '"' :: text ∧
      member item text = .ok (m, mid) ∧ moreMembers item mid.length.succ mid = .ok (ms', rest) := by
  rw [members] at h
  split at h
  · cases h
  · rename_i hclose
    cases h
    exact .inl ⟨rfl, hclose⟩
  · rename_i text hquote
    obtain ⟨⟨m, mid⟩, hm, h⟩ := bind_eq_ok h
    obtain ⟨⟨ms', rest'⟩, hms, h⟩ := bind_eq_ok h
    cases h
    exact .inr ⟨text, m, mid, ms', rfl, hquote, hm, hms⟩
  · cases h

end Parts

theorem eq_scalar_of_word {meaning : Scalar} {v : Value} : ∀ {letters cs : List Char},
    word letters meaning cs = .ok (v, rest) → v = .scalar meaning
  | [], cs, h => by
    cases h
    rfl
  | _ :: _, [], h => by cases h
  | l :: letters, c :: cs, h => by
    rw [word] at h
    split at h
    · exact eq_scalar_of_word h
    · cases h

theorem value_eq_value_zero (ha : ∀ cs', skipSpace cs ≠ '[' :: cs') (ho : ∀ cs', skipSpace cs ≠ '{' :: cs')
    (depth : Nat) : value depth cs = value 0 cs := by
  unfold value
  generalize skipSpace cs = ds at ha ho
  split
  · rfl
  · rfl
  · rfl
  · rfl
  · rfl
  · rfl
  · exact absurd rfl (ha _)
  · exact absurd rfl (ho _)
  · rfl

theorem exists_scalar_of_value_zero {v : Value} (h : value 0 cs = .ok (v, rest)) : ∃ x, v = .scalar x := by
  unfold value at h
  split at h
  · cases h
  · exact ⟨_, eq_scalar_of_word h⟩
  · exact ⟨_, eq_scalar_of_word h⟩
  · exact ⟨_, eq_scalar_of_word h⟩
  · obtain ⟨⟨s, mid⟩, -, h⟩ := bind_eq_ok h
    cases h
    exact ⟨_, rfl⟩
  · obtain ⟨⟨n, mid⟩, -, h⟩ := bind_eq_ok h
    cases h
    exact ⟨_, rfl⟩
  · cases h
  · cases h
  · split at h
    · obtain ⟨⟨n, mid⟩, -, h⟩ := bind_eq_ok h
      cases h
      exact ⟨_, rfl⟩
    · cases h

theorem value_array_eq_ok {depth : Nat} {cs' : List Char} {v : Value} (hopen : skipSpace cs = '[' :: cs')
    (h : value depth cs = .ok (v, rest)) :
    ∃ depth' vs, depth = depth' + 1 ∧ v = .array vs ∧ items (value depth') cs' = .ok (vs, rest) := by
  unfold value at h
  rw [hopen] at h
  cases depth with
  | zero => cases h
  | succ depth =>
    obtain ⟨⟨vs, mid⟩, hvs, h⟩ := bind_eq_ok h
    cases h
    exact ⟨depth, vs, rfl, rfl, hvs⟩

theorem value_object_eq_ok {depth : Nat} {cs' : List Char} {v : Value} (hopen : skipSpace cs = '{' :: cs')
    (h : value depth cs = .ok (v, rest)) :
    ∃ depth' ms, depth = depth' + 1 ∧ v = .object (Entries.ofPairs ms) ∧ members (value depth') cs' = .ok (ms, rest) := by
  unfold value at h
  rw [hopen] at h
  cases depth with
  | zero => cases h
  | succ depth =>
    obtain ⟨⟨ms, mid⟩, hms, h⟩ := bind_eq_ok h
    cases h
    exact ⟨depth, ms, rfl, rfl, hms⟩

/-! ## What is read is spelled -/

section Sources

variable {item : List Char → Except Halt (Value × List Char)}
  (hitem : ∀ {cs rest : List Char} {v : Value}, item cs = .ok (v, rest) →
    ∃ source, Spells (.value source) cs rest ∧ source.value = v)
include hitem

theorem exists_spells_moreItems : ∀ {fuel : Nat} {cs rest : List Char} {vs : List Value},
    moreItems item fuel cs = .ok (vs, rest) →
    ∃ sources, Spells (.items false sources) cs rest ∧ Source.values sources = vs
  | fuel, cs, rest, vs, h => by
    rcases moreItems_eq_ok h with ⟨rfl, hclose⟩ | ⟨fuel', cs', v, mid, vs', rfl, rfl, hcomma, hv, hvs⟩
    · exact ⟨[], .endItems hclose, rfl⟩
    · obtain ⟨source, hsource, rfl⟩ := hitem hv
      obtain ⟨sources, hsources, rfl⟩ := exists_spells_moreItems hvs
      exact ⟨source :: sources, .item hcomma hsource.of_skipSpace hsources, rfl⟩

theorem exists_spells_items {cs rest : List Char} {vs : List Value} (h : items item cs = .ok (vs, rest)) :
    ∃ sources, Spells (.items true sources) cs rest ∧ Source.values sources = vs := by
  rcases items_eq_ok h with ⟨rfl, hclose⟩ | ⟨v, mid, vs', rfl, hv, hvs⟩
  · exact ⟨[], .endItems hclose, rfl⟩
  · obtain ⟨source, hsource, rfl⟩ := hitem hv
    obtain ⟨sources, hsources, rfl⟩ := exists_spells_moreItems hitem hvs
    exact ⟨source :: sources, .item rfl hsource.of_skipSpace hsources, rfl⟩

theorem exists_spells_member (first : Bool) {cs cs' text mid rest : List Char} {m : String × Value}
    {pairs : List (String × Source)} (hcomma : Separated first cs cs') (hquote : skipSpace cs' = '"' :: text)
    (h : member item text = .ok (m, mid)) (hmore : Spells (.members false pairs) mid rest) :
    ∃ source, Spells (.members first ((m.1, source) :: pairs)) cs rest ∧ source.value = m.2 := by
  obtain ⟨behind, written, hkey, hcolon, hv⟩ := member_eq_ok h
  obtain ⟨source, hsource, hvalue⟩ := hitem hv
  exact ⟨source, .member hcomma hquote hkey hcolon hsource hmore, hvalue⟩

theorem exists_spells_moreMembers : ∀ {fuel : Nat} {cs rest : List Char} {ms : List (String × Value)},
    moreMembers item fuel cs = .ok (ms, rest) →
    ∃ pairs, Spells (.members false pairs) cs rest ∧ Source.valuePairs pairs = ms
  | fuel, cs, rest, ms, h => by
    rcases moreMembers_eq_ok h with ⟨rfl, hclose⟩ |
      ⟨fuel', cs', text, m, mid, ms', rfl, rfl, hcomma, hquote, hm, hms⟩
    · exact ⟨[], .endMembers hclose, rfl⟩
    · obtain ⟨pairs, hpairs, rfl⟩ := exists_spells_moreMembers hms
      obtain ⟨source, hsource, hvalue⟩ := exists_spells_member hitem false hcomma hquote hm hpairs
      exact ⟨(m.1, source) :: pairs, hsource, by rw [Source.valuePairs, hvalue]⟩

theorem exists_spells_members {cs rest : List Char} {ms : List (String × Value)}
    (h : members item cs = .ok (ms, rest)) :
    ∃ pairs, Spells (.members true pairs) cs rest ∧ Source.valuePairs pairs = ms := by
  rcases members_eq_ok h with ⟨rfl, hclose⟩ | ⟨text, m, mid, ms', rfl, hquote, hm, hms⟩
  · exact ⟨[], .endMembers hclose, rfl⟩
  · obtain ⟨pairs, hpairs, rfl⟩ := exists_spells_moreMembers hitem hms
    obtain ⟨source, hsource, hvalue⟩ := exists_spells_member hitem true rfl hquote hm hpairs
    exact ⟨(m.1, source) :: pairs, hsource, by rw [Source.valuePairs, hvalue]⟩

end Sources

/-- **What the reader makes of a text** is the value of what the text spells. -/
theorem exists_spells : ∀ {depth : Nat} {cs rest : List Char} {v : Value}, value depth cs = .ok (v, rest) →
    ∃ source, Spells (.value source) cs rest ∧ source.value = v
  | depth, cs, rest, v, h => by
    by_cases ha : ∃ cs', skipSpace cs = '[' :: cs'
    · obtain ⟨cs', hopen⟩ := ha
      obtain ⟨depth', vs, rfl, rfl, hvs⟩ := value_array_eq_ok hopen h
      obtain ⟨sources, hsources, rfl⟩ := exists_spells_items (fun h => exists_spells h) hvs
      exact ⟨.array sources, .array hopen hsources, rfl⟩
    by_cases ho : ∃ cs', skipSpace cs = '{' :: cs'
    · obtain ⟨cs', hopen⟩ := ho
      obtain ⟨depth', ms, rfl, rfl, hms⟩ := value_object_eq_ok hopen h
      obtain ⟨pairs, hpairs, rfl⟩ := exists_spells_members (fun h => exists_spells h) hms
      exact ⟨.object pairs, .object hopen hpairs, rfl⟩
    rw [value_eq_value_zero (not_exists.1 ha) (not_exists.1 ho)] at h
    obtain ⟨x, rfl⟩ := exists_scalar_of_value_zero h
    exact ⟨.scalar x, .scalar h, rfl⟩

/-! ## A text spells one source -/

theorem Separated.eq {first : Bool} {ds ds' : List Char} (h : Separated first cs ds) (h' : Separated first cs ds') :
    ds' = ds := by
  cases first with
  | true =>
    have hd : ds = cs := h
    have hd' : ds' = cs := h'
    rw [hd, hd']
  | false =>
    have hd : skipSpace cs = ',' :: ds := h
    have hd' : skipSpace cs = ',' :: ds' := h'
    rw [hd] at hd'
    exact (List.cons.inj hd').2.symm

theorem Separated.ne_close {first : Bool} {ds : List Char} {close : Char} (h : Separated first cs ds)
    (hclose : skipSpace cs = close :: rest) (hcomma : close ≠ ',') : skipSpace ds = close :: rest := by
  cases first with
  | true =>
    have hd : ds = cs := h
    rwa [hd]
  | false =>
    have hd : skipSpace cs = ',' :: ds := h
    rw [hd] at hclose
    exact absurd (List.cons.inj hclose).1.symm hcomma

theorem Spells.ne_close {rest' : List Char} (h : Spells (.value source) cs rest) : skipSpace cs ≠ ']' :: rest' := by
  intro hclose
  cases h with
  | scalar h =>
    obtain ⟨c, more, hcs, hc⟩ := skipSpace_of_value h
    rw [hcs] at hclose
    exact hc (List.cons.inj hclose).1
  | array hopen =>
    rw [hopen] at hclose
    cases hclose
  | object hopen =>
    rw [hopen] at hclose
    cases hclose

/-- Nothing else is spelled there, when the same is asked for. -/
def Portion.Alone : Portion → List Char → List Char → Prop
  | .value source, cs, rest => ∀ source' rest', Spells (.value source') cs rest' → source' = source ∧ rest' = rest
  | .items first sources, cs, rest => ∀ sources' rest', Spells (.items first sources') cs rest' →
    sources' = sources ∧ rest' = rest
  | .members first pairs, cs, rest => ∀ pairs' rest', Spells (.members first pairs') cs rest' →
    pairs' = pairs ∧ rest' = rest

/-- **A text spells one source**, and ends it at one place. -/
theorem Spells.alone {portion : Portion} (h : Spells portion cs rest) : portion.Alone cs rest := by
  -- the first character behind the white space tells which of the two ways to spell it is
  induction h with
  | scalar h =>
    intro source' rest' h'
    cases h' with
    | scalar h' =>
      rw [h] at h'
      cases h'
      exact ⟨rfl, rfl⟩
    | array hopen =>
      obtain ⟨depth, vs, hdepth, -⟩ := value_array_eq_ok hopen h
      cases hdepth
    | object hopen =>
      obtain ⟨depth, ms, hdepth, -⟩ := value_object_eq_ok hopen h
      cases hdepth
  | array hopen hitems ih =>
    intro source' rest' h'
    cases h' with
    | scalar h' =>
      obtain ⟨depth, vs, hdepth, -⟩ := value_array_eq_ok hopen h'
      cases hdepth
    | array hopen' hitems' =>
      rw [hopen] at hopen'
      cases hopen'
      obtain ⟨rfl, rfl⟩ := ih _ _ hitems'
      exact ⟨rfl, rfl⟩
    | object hopen' =>
      rw [hopen] at hopen'
      cases hopen'
  | object hopen hmembers ih =>
    intro source' rest' h'
    cases h' with
    | scalar h' =>
      obtain ⟨depth, ms, hdepth, -⟩ := value_object_eq_ok hopen h'
      cases hdepth
    | array hopen' =>
      rw [hopen] at hopen'
      cases hopen'
    | object hopen' hmembers' =>
      rw [hopen] at hopen'
      cases hopen'
      obtain ⟨rfl, rfl⟩ := ih _ _ hmembers'
      exact ⟨rfl, rfl⟩
  | endItems hclose =>
    intro sources' rest' h'
    cases h' with
    | endItems hclose' =>
      rw [hclose] at hclose'
      cases hclose'
      exact ⟨rfl, rfl⟩
    | item hcomma hvalue => exact absurd (hcomma.ne_close hclose (by decide)) hvalue.ne_close
  | item hcomma hvalue hmore ihvalue ihmore =>
    intro sources' rest' h'
    cases h' with
    | endItems hclose => exact absurd (hcomma.ne_close hclose (by decide)) hvalue.ne_close
    | item hcomma' hvalue' hmore' =>
      obtain rfl := hcomma.eq hcomma'
      obtain ⟨rfl, rfl⟩ := ihvalue _ _ hvalue'
      obtain ⟨rfl, rfl⟩ := ihmore _ _ hmore'
      exact ⟨rfl, rfl⟩
  | endMembers hclose =>
    intro pairs' rest' h'
    cases h' with
    | endMembers hclose' =>
      rw [hclose] at hclose'
      cases hclose'
      exact ⟨rfl, rfl⟩
    | member hcomma hquote =>
      rw [hcomma.ne_close hclose (by decide)] at hquote
      cases hquote
  | member hcomma hquote hkey hcolon hvalue hmore ihvalue ihmore =>
    intro pairs' rest' h'
    cases h' with
    | endMembers hclose =>
      rw [hcomma.ne_close hclose (by decide)] at hquote
      cases hquote
    | member hcomma' hquote' hkey' hcolon' hvalue' hmore' =>
      obtain rfl := hcomma.eq hcomma'
      rw [hquote] at hquote'
      cases hquote'
      rw [hkey] at hkey'
      cases hkey'
      rw [hcolon] at hcolon'
      cases hcolon'
      obtain ⟨rfl, rfl⟩ := ihvalue _ _ hvalue'
      obtain ⟨rfl, rfl⟩ := ihmore _ _ hmore'
      exact ⟨rfl, rfl⟩

/-! ## Whole texts -/

theorem document_of_decodeJson {text : String} {v : Value} (h : decodeJson text = .ok v) :
    document text.toList = .ok v := by
  unfold decodeJson at h
  split at h
  · rename_i w hw
    cases h
    exact hw
  · cases h

end DocQuery.Json
