import PrefixArithmetic.Proofs.Walk
import PrefixArithmetic.Script

/-!
# Pieces

Units can be cut behind every mark before or after they are replaced by others,
if only the mark is replaced by units that end in the other mark. The UTF-8
encoding of characters is such a replacement, with the newline and its byte as
the marks. So it does not matter whether bytes are decoded first or cut first,
and bytes that cannot be decoded have a piece that cannot.
-/
namespace PrefixArithmetic.Script

section Glue
variable {α β : Type}

theorem glue_glue (front back : List α) (found : List (List α)) :
    glue front (glue back found) = glue (front ++ back) found := by
  cases found with
  | nil => rfl
  | cons piece rest => rw [glue, glue, glue, List.append_assoc]

theorem glue_append {found : List (List α)} (h : found ≠ []) (front : List α)
    (others : List (List α)) : glue front (found ++ others) = glue front found ++ others := by
  obtain ⟨piece, rest, rfl⟩ := List.exists_cons_of_ne_nil h
  rfl

theorem flatten_glue (front : List α) (found : List (List α)) :
    (glue front found).flatten = front ++ found.flatten := by
  cases found with
  | nil => rw [glue, List.flatten_singleton, List.flatten_nil, List.append_nil]
  | cons piece rest => rw [glue, List.flatten_cons, List.flatten_cons, List.append_assoc]

theorem map_glue (f : α → List β) (front : List α) (found : List (List α)) :
    (glue front found).map (·.flatMap f) = glue (front.flatMap f) (found.map (·.flatMap f)) := by
  cases found with
  | nil => rfl
  | cons piece rest => simp only [glue, List.map_cons, List.flatMap_append]

end Glue

section Pieces
variable {α β : Type} [DecidableEq α] [DecidableEq β] {mark : α}

@[simp] theorem pieces_nil : pieces mark [] = [] := rfl

@[simp] theorem pieces_cons_mark (rest : List α) :
    pieces mark (mark :: rest) = [mark] :: pieces mark rest :=
  if_pos rfl

theorem pieces_cons_of_ne {unit : α} (h : unit ≠ mark) (rest : List α) :
    pieces mark (unit :: rest) = glue [unit] (pieces mark rest) :=
  if_neg h

/-- Cutting loses nothing. -/
theorem flatten_pieces (mark : α) (units : List α) : (pieces mark units).flatten = units := by
  induction units with
  | nil => rfl
  | cons unit rest ih =>
    by_cases h : unit = mark
    · rw [h, pieces_cons_mark, List.flatten_cons, ih, List.singleton_append]
    · rw [pieces_cons_of_ne h, flatten_glue, ih, List.singleton_append]

/-- Units without a mark stay together, and with what follows them. -/
theorem pieces_append_of_not_mem {front : List α} (hne : front ≠ []) (h : mark ∉ front)
    (rest : List α) : pieces mark (front ++ rest) = glue front (pieces mark rest) := by
  induction front with
  | nil => exact absurd rfl hne
  | cons unit front ih =>
    have hunit : unit ≠ mark := fun heq => h (heq ▸ List.mem_cons_self)
    have hfront : mark ∉ front := fun hmem => h (List.mem_cons_of_mem unit hmem)
    rw [List.cons_append, pieces_cons_of_ne hunit]
    by_cases hnil : front = []
    · rw [hnil, List.nil_append]
    · rw [ih hnil hfront, glue_glue, List.singleton_append]

/-- A mark ends the piece that it stands in. -/
theorem pieces_append_mark {front : List α} (h : mark ∉ front) (rest : List α) :
    pieces mark (front ++ mark :: rest) = (front ++ [mark]) :: pieces mark rest := by
  by_cases hne : front = []
  · rw [hne, List.nil_append, pieces_cons_mark, List.nil_append]
  · rw [pieces_append_of_not_mem hne h, pieces_cons_mark, glue]

theorem pieces_of_not_mem {units : List α} (hne : units ≠ []) (h : mark ∉ units) :
    pieces mark units = [units] := by
  have hpieces := pieces_append_of_not_mem hne h []
  rwa [List.append_nil, pieces_nil, glue] at hpieces

/-- Behind a mark the pieces start afresh. -/
theorem pieces_append_cons_mark (front back : List α) :
    pieces mark (front ++ mark :: back) = pieces mark (front ++ [mark]) ++ pieces mark back := by
  induction front with
  | nil => simp
  | cons unit front ih =>
    rw [List.cons_append, List.cons_append]
    by_cases h : unit = mark
    · rw [h, pieces_cons_mark, pieces_cons_mark, ih, List.cons_append]
    · have hne : pieces mark (front ++ [mark]) ≠ [] := by
        intro hnil
        have hflat := flatten_pieces mark (front ++ [mark])
        rw [hnil] at hflat
        exact List.append_ne_nil_of_right_ne_nil front (List.cons_ne_nil mark []) hflat.symm
      rw [pieces_cons_of_ne h, pieces_cons_of_ne h, ih, glue_append hne]

/-- A piece has its mark at the end, if anywhere. -/
theorem exists_body_of_mem_pieces {units piece : List α} (h : piece ∈ pieces mark units) :
    ∃ body, mark ∉ body ∧ (piece = body ∨ piece = body ++ [mark]) := by
  induction units generalizing piece with
  | nil => cases h
  | cons unit rest ih =>
    by_cases hunit : unit = mark
    · rw [hunit, pieces_cons_mark, List.mem_cons] at h
      rcases h with rfl | hrest
      · exact ⟨[], List.not_mem_nil, .inr rfl⟩
      · exact ih hrest
    · rw [pieces_cons_of_ne hunit] at h
      cases hfound : pieces mark rest with
      | nil =>
        rw [hfound, glue, List.mem_singleton] at h
        exact ⟨[unit], by simpa using Ne.symm hunit, .inl h⟩
      | cons first others =>
        rw [hfound] at h ih
        rcases List.mem_cons.mp h with rfl | hrest
        · obtain ⟨body, hbody, hfirst⟩ := ih List.mem_cons_self
          refine ⟨unit :: body, ?_, ?_⟩
          · exact List.not_mem_cons_of_ne_of_not_mem (Ne.symm hunit) hbody
          · rcases hfirst with rfl | rfl
            · exact .inl rfl
            · exact .inr rfl
        · exact ih (List.mem_cons_of_mem first hrest)

/-- A replacement of units that keeps the ends of pieces: the mark becomes units that end in the
other mark, and any other unit becomes units without it. -/
structure KeepsEnds (mark : α) (mark' : β) (f : α → List β) : Prop where
  ending : ∃ before, mark' ∉ before ∧ f mark = before ++ [mark']
  inner : ∀ unit, unit ≠ mark → f unit ≠ [] ∧ mark' ∉ f unit

/-- The pieces of replaced units are the replaced pieces. -/
theorem pieces_flatMap {mark' : β} {f : α → List β} (hf : KeepsEnds mark mark' f)
    (units : List α) : pieces mark' (units.flatMap f) = (pieces mark units).map (·.flatMap f) := by
  induction units with
  | nil => rfl
  | cons unit rest ih =>
    rw [List.flatMap_cons]
    by_cases h : unit = mark
    · obtain ⟨before, hbefore, hmark⟩ := hf.ending
      rw [h, hmark, pieces_cons_mark, List.map_cons, List.flatMap_singleton, hmark,
        List.append_assoc, List.singleton_append, pieces_append_mark hbefore, ih]
    · obtain ⟨hne, hnot⟩ := hf.inner unit h
      rw [pieces_append_of_not_mem hne hnot, ih, pieces_cons_of_ne h, map_glue,
        List.flatMap_singleton]

end Pieces

section Bytes

/-- The byte of a newline occurs in the encoding of no other character. -/
theorem newline_not_mem_utf8EncodeChar {c : Char} (h : c ≠ '\n') :
    '\n'.toUInt8 ∉ String.utf8EncodeChar c := by
  have hcode : c.val.toNat ≠ 10 := by
    intro heq
    exact h (Char.ext (UInt32.toNat_inj.mp heq))
  have hbyte : '\n'.toUInt8 = UInt8.ofNat 10 := rfl
  rw [hbyte, String.utf8EncodeChar]
  split_ifs <;>
    simp only [List.mem_cons, List.not_mem_nil, or_false, ← UInt8.toNat_inj, UInt8.toNat_ofNat'] <;>
    omega

theorem keepsEnds_utf8EncodeChar : KeepsEnds '\n' '\n'.toUInt8 String.utf8EncodeChar where
  ending := ⟨[], List.not_mem_nil, rfl⟩
  inner _ h := ⟨String.utf8EncodeChar_ne_nil, newline_not_mem_utf8EncodeChar h⟩

/-- The bytes of a text are those of its characters. -/
theorem eq_toUTF8_iff {bytes : ByteArray} {text : String} :
    bytes = text.toUTF8 ↔ bytes.data.toList = text.toList.flatMap String.utf8EncodeChar := by
  have hdata : text.toUTF8.data.toList = text.toList.flatMap String.utf8EncodeChar := by
    rw [String.toUTF8_eq_toByteArray, ← String.utf8Encode_toList, List.utf8Encode,
      List.toList_data_toByteArray]
  rw [← hdata, Array.toList_inj]
  exact ⟨congrArg ByteArray.data, ByteArray.ext⟩

/-- Only the bytes of a text are decoded as it. -/
theorem fromUTF8?_eq_some_iff {bytes : ByteArray} {text : String} :
    String.fromUTF8? bytes = some text ↔ bytes = text.toUTF8 := by
  constructor
  · intro h
    unfold String.fromUTF8? at h
    split_ifs at h
    cases h
    rfl
  · rintro rfl
    exact dif_pos text.isValidUTF8

theorem fromUTF8?_eq_none_iff {bytes : ByteArray} :
    String.fromUTF8? bytes = none ↔ ¬bytes.IsValidUTF8 := by
  unfold String.fromUTF8?
  split_ifs with h <;> simp [h]

/-- The pieces of an encoded text are the encoded pieces. -/
theorem mapM_fromUTF8?_toUTF8 (text : String) :
    (bytePieces text.toUTF8).mapM String.fromUTF8? = some (textPieces text) := by
  rw [bytePieces, eq_toUTF8_iff.mp rfl, pieces_flatMap keepsEnds_utf8EncodeChar, textPieces,
    mapM_eq_some_iff, List.forall₂_map_left_iff, List.forall₂_map_left_iff,
    List.forall₂_map_right_iff, List.forall₂_same]
  intro piece _
  rw [fromUTF8?_eq_some_iff, eq_toUTF8_iff, String.toList_ofList]

/-- Bytes whose pieces can all be decoded are those of the decoded pieces in a row. -/
theorem fromUTF8?_join {bytes : ByteArray} {texts : List String}
    (h : (bytePieces bytes).mapM String.fromUTF8? = some texts) :
    String.fromUTF8? bytes = some (String.join texts) := by
  rw [bytePieces, mapM_eq_some_iff, List.forall₂_map_left_iff] at h
  simp only [fromUTF8?_eq_some_iff, eq_toUTF8_iff] at h
  have hpieces : pieces '\n'.toUInt8 bytes.data.toList =
      texts.map (·.toList.flatMap String.utf8EncodeChar) := by
    rw [← List.forall₂_eq_eq_eq, List.forall₂_map_right_iff]
    exact h
  rw [fromUTF8?_eq_some_iff, eq_toUTF8_iff, ← flatten_pieces '\n'.toUInt8 bytes.data.toList, hpieces,
    String.toList_join, List.flatMap_assoc, List.flatMap_def]

/-- Bytes can be cut before they are decoded, or decoded before they are cut. -/
theorem mapM_fromUTF8?_bytePieces (bytes : ByteArray) :
    (bytePieces bytes).mapM String.fromUTF8? = (String.fromUTF8? bytes).map textPieces := by
  cases htext : String.fromUTF8? bytes with
  | some text =>
    rw [fromUTF8?_eq_some_iff.mp htext, mapM_fromUTF8?_toUTF8]
    rfl
  | none =>
    cases hpieces : (bytePieces bytes).mapM String.fromUTF8? with
    | none => rfl
    | some texts =>
      rw [fromUTF8?_join hpieces] at htext
      cases htext

/-- A stream holds the expressions that a file of the same bytes holds. -/
theorem ofStream?_eq_ofFile? (bytes : ByteArray) : ofStream? bytes = ofFile? bytes := by
  rw [ofStream?, streamLines?, mapM_fromUTF8?_bytePieces, ofFile?, Option.map_map, Option.map_map]
  rfl

end Bytes

end PrefixArithmetic.Script
