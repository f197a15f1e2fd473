import DocQuery.Gzip.Member
import DocQuery.Load
/-!
# The ways to a document

The bytes of a text never look compressed: the second byte of a compressed file continues a character, which the first
byte does not start (`Utf8.hasMagic_toUTF8`).  What can be decompressed does look compressed
(`Gzip.hasMagic_of_decompress?`).  So the first bytes of standard input tell what the name of a file tells, and a
document is the same whichever way it comes (`loading_routes_agree`, `loadInput_eq_ok_iff`).
-/
namespace DocQuery

/-! ## Texts in bytes -/

namespace Utf8

theorem toList_loop (bytes : ByteArray) (i : Nat) (front : List UInt8) :
    ByteArray.toList.loop bytes i front = front.reverse ++ bytes.data.toList.drop i := by
  fun_induction ByteArray.toList.loop bytes i front with
  | case1 i front hi ih =>
    have hlength : i < bytes.data.toList.length := hi
    have hget : bytes.get! i = bytes.data.toList[i] := getElem!_pos bytes.data i hi
    rw [ih, List.drop_eq_getElem_cons hlength, hget, List.reverse_cons, List.append_assoc, List.singleton_append]
  | case2 i front hi =>
    have hlength : bytes.data.toList.length ≤ i := Nat.le_of_not_lt hi
    rw [List.drop_eq_nil_of_le hlength, List.append_nil]

theorem toList_eq (bytes : ByteArray) : bytes.toList = bytes.data.toList := by
  rw [ByteArray.toList, toList_loop]
  rfl

theorem toList_toUTF8 (text : String) : text.toUTF8.toList = text.toList.flatMap String.utf8EncodeChar := by
  have hbytes : text.toUTF8 = (text.toList.flatMap String.utf8EncodeChar).toByteArray := by
    rw [String.toUTF8_eq_toByteArray, ← String.utf8Encode_toList]
    rfl
  rw [hbytes, toList_eq, List.toList_data_toByteArray]

theorem fromUTF8?_toUTF8 (text : String) : String.fromUTF8? text.toUTF8 = some text := by
  rw [String.fromUTF8?, String.toUTF8_eq_toByteArray, dif_pos text.isValidUTF8]
  rfl

theorem eq_toUTF8 {bytes : ByteArray} {text : String} (h : String.fromUTF8? bytes = some text) :
    bytes = text.toUTF8 := by
  rw [String.fromUTF8?] at h
  split at h
  · cases h
    rfl
  · cases h

theorem and_or_right (x y : UInt8) : y &&& (x ||| y) = y := by
  apply UInt8.toBitVec_inj.1
  apply BitVec.eq_of_getLsbD_eq
  intro i hi
  rw [UInt8.toBitVec_and, UInt8.toBitVec_or, BitVec.getLsbD_and, BitVec.getLsbD_or]
  cases y.toBitVec.getLsbD i
  · rw [Bool.false_and]
  · rw [Bool.or_true, Bool.and_true]

/-- A byte with one of the three high bits is not the first one of a compressed file. -/
theorem or_ne_control {x mark : UInt8} (hmark : mark &&& 0x1f ≠ mark) : x ||| mark ≠ 0x1f := by
  intro h
  apply hmark
  rw [← h]
  exact and_or_right x mark

/-- **The first byte of a character** starts one, and is not that of a compressed file unless it is the only one. -/
theorem first_byte (c : Char) : ∃ (b : UInt8) (bs : List UInt8),
    String.utf8EncodeChar c = b :: bs ∧ b.IsUTF8FirstByte ∧ (b = 0x1f → bs = []) := by
  have hfirst := UInt8.isUTF8FirstByte_getElem_zero_utf8EncodeChar (c := c)
  obtain h | h | h | h := c.utf8Size_eq
  · have heq := String.utf8EncodeChar_eq_singleton h
    simp only [heq] at hfirst
    exact ⟨_, _, heq, hfirst, fun _ => rfl⟩
  · have heq := String.utf8EncodeChar_eq_cons_cons h
    simp only [heq] at hfirst
    exact ⟨_, _, heq, hfirst, fun hb => absurd hb (or_ne_control (by decide))⟩
  · have heq := String.utf8EncodeChar_eq_cons_cons_cons h
    simp only [heq] at hfirst
    exact ⟨_, _, heq, hfirst, fun hb => absurd hb (or_ne_control (by decide))⟩
  · have heq := String.utf8EncodeChar_eq_cons_cons_cons_cons h
    simp only [heq] at hfirst
    exact ⟨_, _, heq, hfirst, fun hb => absurd hb (or_ne_control (by decide))⟩

theorem hasMagic_toUTF8 (text : String) : Gzip.hasMagic text.toUTF8.toList = false := by
  rw [toList_toUTF8]
  cases text.toList with
  | nil => rfl
  | cons c cs =>
    obtain ⟨b, bs, hc, -, hone⟩ := first_byte c
    rw [List.flatMap_cons, hc]
    by_cases hb : b = 0x1f
    · -- the character ends there, and the next byte is the first one of another
      rw [hb, hone hb]
      cases cs with
      | nil => rfl
      | cons d ds =>
        obtain ⟨b', bs', hd, hfirst, -⟩ := first_byte d
        have hb' : b' ≠ 0x8b := fun h => absurd (h ▸ hfirst) (by decide)
        rw [List.flatMap_cons, hd]
        have hne : (0x8b == b') = false := beq_false_of_ne hb'.symm
        simp [Gzip.hasMagic, Gzip.magic, List.isPrefixOf, hne]
    · have hne : (0x1f == b) = false := beq_false_of_ne fun h => hb h.symm
      simp [Gzip.hasMagic, Gzip.magic, List.isPrefixOf, hne]

end Utf8

/-! ## Loading -/

theorem FileName.splitOnAux_step {name : String} {i : String.Pos.Raw} (hend : i.atEnd name = false)
    (hget : i.get name ≠ '/') :
    name.splitOnAux "/" 0 i 0 [] = name.splitOnAux "/" 0 (i.next name) 0 [] := by
  have hsep : String.Pos.Raw.get "/" 0 = '/' := by decide
  have hne : (i.get name == '/') = false := beq_false_of_ne hget
  rw [String.splitOnAux, hend, if_neg Bool.false_ne_true, hsep, hne, if_neg Bool.false_ne_true]
  rfl

theorem match_text_eq_ok {format : Format} {found : Option String} {e : LoadError} {v : Value}
    (h : (match found with
      | some text => decodeLoaded format text
      | none => .error e) = .ok v) : ∃ text, found = some text ∧ decodeLoaded format text = .ok v := by
  cases found with
  | none => cases h
  | some text => exact ⟨text, rfl, h⟩

section Routes

variable [Gzip.Decoder] {format : Format} {name : String} {bytes : ByteArray} {text : String}

theorem loadFile_of_isGzip (hname : FileName.isGzip name = true) (format : Format) (bytes : ByteArray) :
    loadFile name format (.ok bytes) =
      match (Gzip.decompress? bytes.toList).bind String.fromUTF8? with
      | some text => decodeLoaded format text
      | none => .error .damagedArchive := by
  unfold loadFile
  exact if_pos hname

theorem loadFile_of_not_isGzip (hname : FileName.isGzip name = false) (format : Format) (bytes : ByteArray) :
    loadFile name format (.ok bytes) =
      match String.fromUTF8? bytes with
      | some text => decodeLoaded format text
      | none => .error (.unreadableFile name .notUtf8) := by
  unfold loadFile
  rw [hname]
  exact if_neg Bool.false_ne_true

theorem loadInput_toUTF8 (format : Format) (text : String) :
    loadInput format text.toUTF8 = decodeLoaded format text := by
  unfold loadInput
  rw [Utf8.hasMagic_toUTF8, if_neg Bool.false_ne_true, Utf8.fromUTF8?_toUTF8]

theorem loadFile_toUTF8 (hname : FileName.isGzip name = false) (format : Format) (text : String) :
    loadFile name format (.ok text.toUTF8) = decodeLoaded format text := by
  rw [loadFile_of_not_isGzip hname, Utf8.fromUTF8?_toUTF8]

theorem loadInput_of_decompress? (h : Gzip.decompress? bytes.toList = some text.toUTF8) (format : Format) :
    loadInput format bytes = decodeLoaded format text := by
  unfold loadInput
  rw [if_pos (Gzip.hasMagic_of_decompress? h), h, Option.bind_some, Utf8.fromUTF8?_toUTF8]

theorem loadFile_of_decompress? (hname : FileName.isGzip name = true)
    (h : Gzip.decompress? bytes.toList = some text.toUTF8) (format : Format) :
    loadFile name format (.ok bytes) = decodeLoaded format text := by
  rw [loadFile_of_isGzip hname, h, Option.bind_some, Utf8.fromUTF8?_toUTF8]

theorem exists_text_of_loadInput_eq_ok {v : Value} (h : loadInput format bytes = .ok v) :
    ∃ text : String, decodeLoaded format text = .ok v ∧
      (bytes = text.toUTF8 ∨ Gzip.decompress? bytes.toList = some text.toUTF8) := by
  unfold loadInput at h
  by_cases hmagic : Gzip.hasMagic bytes.toList = true
  · rw [if_pos hmagic] at h
    obtain ⟨text, htext, hv⟩ := match_text_eq_ok h
    obtain ⟨out, hout, hutf8⟩ := Option.bind_eq_some_iff.1 htext
    exact ⟨text, hv, .inr (by rw [hout, Utf8.eq_toUTF8 hutf8])⟩
  · rw [if_neg hmagic] at h
    obtain ⟨text, htext, hv⟩ := match_text_eq_ok h
    exact ⟨text, hv, .inl (Utf8.eq_toUTF8 htext)⟩

/-- **Standard input gives what a file of the fitting name gives**, and nothing where no name fits. -/
theorem loadInput_eq_ok_iff {plain compressed : String} (hplain : FileName.isGzip plain = false)
    (hcompressed : FileName.isGzip compressed = true) (format : Format) (bytes : ByteArray) (v : Value) :
    loadInput format bytes = .ok v ↔
      loadFile plain format (.ok bytes) = .ok v ∨ loadFile compressed format (.ok bytes) = .ok v := by
  constructor
  · intro h
    obtain ⟨text, hv, rfl | hout⟩ := exists_text_of_loadInput_eq_ok h
    · exact .inl (by rw [loadFile_toUTF8 hplain, hv])
    · exact .inr (by rw [loadFile_of_decompress? hcompressed hout, hv])
  · rintro (h | h)
    · rw [loadFile_of_not_isGzip hplain] at h
      obtain ⟨text, htext, hv⟩ := match_text_eq_ok h
      rw [Utf8.eq_toUTF8 htext, loadInput_toUTF8, hv]
    · rw [loadFile_of_isGzip hcompressed] at h
      obtain ⟨text, htext, hv⟩ := match_text_eq_ok h
      obtain ⟨out, hout, hutf8⟩ := Option.bind_eq_some_iff.1 htext
      rw [Utf8.eq_toUTF8 hutf8] at hout
      rw [loadInput_of_decompress? hout, hv]

/-- **All ways to a document agree.**  The bytes of a text give its value, from standard input, where they never look
compressed, as from a file that is not named as compressed.  So do bytes that decompress to those of the text, from
standard input and from a file that is named so.  If the text has no value, its error is the cause of the failure.  And
of any bytes standard input gives the values that files of the two kinds of names give. -/
theorem loading_routes_agree (format : Format) (text : String) :
    (Gzip.hasMagic text.toUTF8.toList = false ∧ loadInput format text.toUTF8 = decodeLoaded format text ∧
      ∀ name, FileName.extension? name ≠ some ['g', 'z'] →
        loadFile name format (.ok text.toUTF8) = decodeLoaded format text) ∧
    (∀ bytes : ByteArray, Gzip.decompress? bytes.toList = some text.toUTF8 →
      Gzip.hasMagic bytes.toList = true ∧ loadInput format bytes = decodeLoaded format text ∧
      ∀ name, FileName.extension? name = some ['g', 'z'] →
        loadFile name format (.ok bytes) = decodeLoaded format text) ∧
    (∀ v, decode format text = .ok v → decodeLoaded format text = .ok v) ∧
    (∀ cause, decode format text = .error cause →
      ∃ e, decodeLoaded format text = .error e ∧ e = .undecodable format cause ∧ e.cause? = some cause) ∧
    ∀ (bytes : ByteArray) (v : Value) (plain compressed : String), FileName.extension? plain ≠ some ['g', 'z'] →
      FileName.extension? compressed = some ['g', 'z'] → (loadInput format bytes = .ok v ↔
        loadFile plain format (.ok bytes) = .ok v ∨ loadFile compressed format (.ok bytes) = .ok v) := by
  refine ⟨⟨Utf8.hasMagic_toUTF8 text, loadInput_toUTF8 format text, fun name hname => ?_⟩, fun bytes h =>
    ⟨Gzip.hasMagic_of_decompress? h, loadInput_of_decompress? h format, fun name hname => ?_⟩, fun v h => ?_,
    fun cause h => ⟨_, ?_, rfl, rfl⟩, fun bytes v plain compressed hplain hcompressed =>
    loadInput_eq_ok_iff (beq_false_of_ne hplain) (beq_iff_eq.2 hcompressed) format bytes v⟩
  · exact loadFile_toUTF8 (beq_false_of_ne hname) format text
  · exact loadFile_of_decompress? (beq_iff_eq.2 hname) h format
  · unfold decodeLoaded
    rw [h]
    rfl
  · unfold decodeLoaded
    rw [h]
    rfl

end Routes

/-- A text without a value comes to one error all four ways, as it is and compressed; one with a value loads. -/
theorem loading_routes_agree_member :
    let member : ByteArray := ⟨#[0x1f, 0x8b, 8, 0, 0, 0, 0, 0, 0, 0xff, 1, 1, 0, 0xfe, 0xff, 0x5b, 0xf1, 0x67, 0xbb,
      0x2e, 1, 0, 0, 0]⟩
    (∃ (cause : DecodeError) (e : LoadError), decode .json "[" = .error cause ∧ e.cause? = some cause ∧
      loadInput .json "[".toUTF8 = .error e ∧ loadFile "a" .json (.ok "[".toUTF8) = .error e ∧
      loadInput .json member = .error e ∧ loadFile "a.gz" .json (.ok member) = .error e) ∧
    loadInput .json "[]".toUTF8 = .ok (.array []) := by
  intro member
  obtain ⟨⟨-, hinput, hfile⟩, hmember, -, hfailed, -⟩ := loading_routes_agree .json "["
  obtain ⟨⟨-, hinput', -⟩, -, hloaded, -⟩ := loading_routes_agree .json "[]"
  have hplain : "a".splitOn "/" = ["a"] := by
    rw [String.splitOn, if_neg (by decide), FileName.splitOnAux_step (by decide) (by decide), String.splitOnAux,
      if_pos (by decide)]
    decide +kernel
  have hcompressed : "a.gz".splitOn "/" = ["a.gz"] := by
    rw [String.splitOn, if_neg (by decide), FileName.splitOnAux_step (by decide) (by decide),
      FileName.splitOnAux_step (by decide) (by decide), FileName.splitOnAux_step (by decide) (by decide),
      FileName.splitOnAux_step (by decide) (by decide), String.splitOnAux, if_pos (by decide)]
    decide +kernel
  have hout : Gzip.decompress? member.toList = some "[".toUTF8 := by
    rw [Utf8.toList_eq]
    decide +kernel
  obtain ⟨-, hinputMember, hfileMember⟩ := hmember member hout
  obtain ⟨e, he, -, hcause⟩ := hfailed _ rfl
  refine ⟨⟨_, e, rfl, hcause, hinput.trans he, (hfile "a" ?_).trans he, hinputMember.trans he,
    (hfileMember "a.gz" ?_).trans he⟩, hinput'.trans (hloaded _ rfl)⟩
  · rw [FileName.extension?, hplain]
    decide +kernel
  · rw [FileName.extension?, hcompressed]
    decide +kernel

end DocQuery
