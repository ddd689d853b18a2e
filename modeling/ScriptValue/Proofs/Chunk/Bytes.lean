import ScriptValue.Proofs.Chunk.Delete
import ScriptValue.Proofs.Chunk.Encoding

namespace ScriptValue

open Utf8

def Span.encode (c : Span) (t : Text) : Span :=
  ⟨(Utf8.encode (t.take c.start)).length, (Utf8.encode (t.take c.stop)).length⟩

theorem Span.slice_encode {c : Span} (h : c.start ≤ c.stop) (t : Text) :
    (c.encode t).slice (Utf8.encode t) = Utf8.encode (c.slice t) := by
  have htake : (t.take c.stop).take c.start = t.take c.start := by
    rw [List.take_take, Nat.min_eq_left h]
  rw [slice, slice, encode, take_encode, ← drop_encode, htake]

theorem Piece.spans_encode (before : Text) (ps : List (Piece Char)) (rest : Text) :
    spans (Utf8.encode before).length (ps.map Piece.encode) =
      (spans before.length ps).map (Span.encode · (before ++ (ps.flatMap units ++ rest))) := by
  induction ps generalizing before with
  | nil => rfl
  | cons p ps ih =>
    have hunits : before ++ ((p :: ps).flatMap units ++ rest) =
        before ++ (p.units ++ (ps.flatMap units ++ rest)) := by
      rw [List.flatMap_cons, List.append_assoc]
    have hlies := lies before p (ps.flatMap units ++ rest)
    have hlater := ih (before ++ p.units)
    rw [List.append_assoc, List.length_append, length_units, encode_append, ← units_encode,
      List.length_append, length_units] at hlater
    rw [List.map_cons, spans, spans, List.map_cons, hunits, Span.encode, hlies.take_start,
      hlies.take_stop]
    simp only [Nat.add_assoc, encode_append, List.length_append] at hlater ⊢
    rw [hlater]
    rfl

namespace Segmentation

variable {kind : ChunkKind} {d : Delimiters} {t : Text}

/-- A segmentation of bytes that has its chunks where one of text has them. -/
structure Encodes (s' : Segmentation UInt8) (s : Segmentation Char) : Prop where
  units_eq : s'.units = Utf8.encode s.units
  spans_eq : s'.spans = s.spans.map (Span.encode · s.units)

namespace Encodes

variable {s' : Segmentation UInt8} {s : Segmentation Char} (h : s'.Encodes s)

include h

theorem count_eq : s'.count = s.count := by
  rw [count, h.spans_eq, List.length_map, count]

theorem chunk?_eq (n : Int) : s'.chunk? n = (s.chunk? n).map (Span.encode · s.units) := by
  rw [chunk?, chunk?, h.spans_eq]
  split
  · rfl
  · rw [List.getElem?_map]

theorem length_eq : s'.length = (Utf8.encode (s.units.take s.length)).length := by
  rw [length, h.units_eq, length, List.take_length]

theorem start_eq (n : Int) : s'.start n = (Utf8.encode (s.units.take (s.start n))).length := by
  rw [start, start, h.chunk?_eq, h.count_eq, h.length_eq]
  cases s.chunk? n with
  | some c => rfl
  | none =>
    simp only [Option.map_none]
    split
    · rfl
    · rfl

theorem span_eq (n : Int) : s'.span n = (s.span n).encode s.units := by
  rw [span, span, h.chunk?_eq, h.start_eq]
  cases s.chunk? n <;> rfl

theorem range_eq (spec : ChunkSpec) : s'.range spec = (s.range spec).encode s.units := by
  rw [range, range, h.count_eq, h.length_eq]
  simp only [h.span_eq]
  split
  · rfl
  · split
    · rfl
    · rfl

theorem place_eq (spec : ChunkSpec) (p : Preposition) :
    s'.place spec p = (s.place spec p).encode s.units := by
  cases p <;> simp only [place, h.range_eq] <;> rfl

theorem removal?_eq (spec : ChunkSpec) :
    s'.removal? spec = (s.removal? spec).map (Span.encode · s.units) := by
  rw [removal?, removal?, h.count_eq]
  simp only [h.span_eq, h.start_eq]
  split
  · rfl
  · split
    · rfl
    · split
      · rfl
      · rfl

theorem replace_eq (c : Span) (r : Text) :
    s'.replace (c.encode s.units) (Utf8.encode r) = Utf8.encode (s.replace c r) := by
  rw [replace, replace, h.units_eq, Span.encode, take_encode, drop_encode, encode_append,
    encode_append]

end Encodes

variable (hd : ∀ c ∈ d.forKind? kind, IsAscii c)
  (hascii : kind.isDelimited = true ∨ ∀ c ∈ t, IsAscii c)

include hd hascii

theorem encodes_of : (of kind d (Utf8.encode t)).Encodes (of kind d t) := by
  refine ⟨rfl, ?_⟩
  obtain ⟨rest, hrest⟩ := ((Piece.reads_cut kind d).layout t).exists_append
  have hspans := Piece.spans_encode [] (Piece.cut kind d t) rest
  rw [List.nil_append, ← hrest, ← Piece.cut_encode hd hascii] at hspans
  exact hspans

theorem isClosed_encode (hkind : kind.padsWhenExtended = true) :
    (of kind d (Utf8.encode t)).isClosed = (of kind d t).isClosed := by
  rw [Piece.isClosed_eq hkind, Piece.isClosed_eq hkind]
  cases List.eq_nil_or_concat' t with
  | inl hnil =>
    rw [hnil]
    rfl
  | inr hconcat =>
    obtain ⟨t, c, rfl⟩ := hconcat
    have hne : String.utf8EncodeChar c ≠ [] := String.utf8EncodeChar_ne_nil
    have hlast :
        (Utf8.encode (t ++ [c])).getLast? = some ((String.utf8EncodeChar c).getLast hne) := by
      rw [encode_append, encode_cons, show Utf8.encode [] = [] from rfl, List.append_nil,
        List.getLast?_append_of_ne_nil _ hne, List.getLast?_eq_some_getLast hne]
    rw [hlast, List.getLast?_concat, Option.any_some, Option.any_some]
    exact Piece.separates_of_mem_utf8EncodeChar hd (hascii.imp_right fun h => h c (by simp))
      (List.getLast_mem hne)

theorem padding_encode (n : Nat) :
    (of kind d (Utf8.encode t)).padding n = Utf8.encode ((of kind d t).padding n) := by
  have hencodes := encodes_of hd hascii
  have hbyte : (of kind d (Utf8.encode t)).separator? = (of kind d t).separator?.map byte :=
    Piece.separator?_byte hd
  rw [padding, padding, hbyte, hencodes.count_eq]
  cases hsep : (of kind d t).separator? with
  | none => rfl
  | some e =>
    obtain ⟨he, hkind⟩ := Piece.isAscii_of_separator? hd hsep
    have hnil : (of kind d (Utf8.encode t)).units = [] ↔ (of kind d t).units = [] := by
      rw [hencodes.units_eq, encode_eq_nil_iff]
    have hreplicate (m : Nat) : Utf8.encode (List.replicate m e) = List.replicate m (byte e) := by
      rw [encode_eq_map fun c hc => List.eq_of_mem_replicate hc ▸ he, List.map_replicate]
    simp only [Option.map_some, hnil, isClosed_encode hd hascii hkind, hreplicate]

end Segmentation

/--
Counting, reading, writing and deleting chunks comes to the same before a text is encoded and after:
for items, columns and rows if the delimiter is ASCII, and for all kinds if the text is ASCII too.
-/
theorem edit_encode (d : Delimiters) (spec : ChunkSpec) (p : Preposition) (t r : Text)
    (hd : ∀ c ∈ d.forKind? spec.kind, IsAscii c)
    (hascii : spec.kind.isDelimited = true ∨ ∀ c ∈ t, IsAscii c) :
    (Segmentation.of spec.kind d (Utf8.encode t)).count = (Segmentation.of spec.kind d t).count ∧
      extract d spec (Utf8.encode t) = Utf8.encode (extract d spec t) ∧
      splice d spec p (Utf8.encode r) (Utf8.encode t) = Utf8.encode (splice d spec p r t) ∧
      delete d spec (Utf8.encode t) = Utf8.encode (delete d spec t) := by
  have h := Segmentation.encodes_of hd hascii
  have hordered := Segmentation.ordered_of spec.kind d t
  refine ⟨h.count_eq, ?_, ?_, ?_⟩
  · have hrange := (hordered.range_within spec).start_le_stop
    rw [extract, extract, Segmentation.extract, Segmentation.extract, h.range_eq, h.units_eq,
      Span.slice_encode hrange]
  · rw [splice, splice, Segmentation.splice, Segmentation.splice, h.count_eq, h.place_eq,
      h.replace_eq, h.units_eq, Segmentation.padding_encode hd hascii]
    split
    · rw [encode_append, encode_append]
    · rfl
  · rw [delete, delete, Segmentation.delete, Segmentation.delete, h.removal?_eq]
    cases (Segmentation.of spec.kind d t).removal? spec with
    | none => exact h.units_eq
    | some c => exact h.replace_eq c []

theorem edit_encode_items :
    let spec : ChunkSpec := ⟨.item, .nth 2, none⟩
    let t := "é,ß,x".toList
    let words : ChunkSpec := ⟨.word, .nth 1, some (.nth 2)⟩
    let u := "to be or".toList
    (∀ c ∈ Delimiters.standard.forKind? spec.kind, IsAscii c) ∧ spec.kind.isDelimited = true ∧
      (Segmentation.of .item .standard (Utf8.encode t)).count = 3 ∧
      extract .standard spec (Utf8.encode t) = [0xC3, 0x9F] ∧
      splice .standard spec .after (Utf8.encode ['日']) (Utf8.encode t) =
        Utf8.encode "é,ß日,x".toList ∧
      delete .standard spec (Utf8.encode t) = Utf8.encode "é,x".toList ∧
      (∀ c ∈ u, IsAscii c) ∧ delete .standard words (Utf8.encode u) = Utf8.encode "or".toList := by
  intro spec t words u
  have hd : ∀ c ∈ Delimiters.standard.forKind? spec.kind, IsAscii c := by
    rintro _ ⟨⟩
    decide
  have hall : (u.all fun c => decide (IsAscii c)) = true := by decide
  have hu : ∀ c ∈ u, IsAscii c := by
    simpa only [List.all_eq_true, decide_eq_true_eq] using hall
  obtain ⟨hcount, hextract, hsplice, hdelete⟩ :=
    edit_encode .standard spec .after t ['日'] hd (.inl rfl)
  obtain ⟨-, -, -, hwords⟩ := edit_encode .standard words .into u [] nofun (.inr hu)
  refine ⟨hd, rfl, hcount.trans ?_, hextract.trans ?_, hsplice.trans ?_, hdelete.trans ?_, hu,
    hwords.trans ?_⟩
  · decide
  · decide
  · decide
  · decide
  · decide

end ScriptValue
