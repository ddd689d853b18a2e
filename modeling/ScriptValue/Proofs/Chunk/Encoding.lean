import ScriptValue.Proofs.Chunk.Extend
import ScriptValue.Proofs.Text.Ascii

namespace ScriptValue

open Utf8

structure ChunkUnit.Same {α β : Type} [ChunkUnit α] [ChunkUnit β] (u : α) (v : β) : Prop where
  isBlank_eq : isBlank v = isBlank u
  isReturn_eq : isReturn v = isReturn u
  isFeed_eq : isFeed v = isFeed u
  isLineBreak_eq : isLineBreak v = isLineBreak u
  isSentenceEnd_eq : isSentenceEnd v = isSentenceEnd u

theorem same_byte {c : Char} (hc : IsAscii c) : ChunkUnit.Same c (byte c) := by
  have hall : ∀ n < 128,
      ChunkUnit.isBlank (byte (Char.ofNat n)) = ChunkUnit.isBlank (Char.ofNat n) ∧
      ChunkUnit.isReturn (byte (Char.ofNat n)) = ChunkUnit.isReturn (Char.ofNat n) ∧
      ChunkUnit.isFeed (byte (Char.ofNat n)) = ChunkUnit.isFeed (Char.ofNat n) ∧
      ChunkUnit.isLineBreak (byte (Char.ofNat n)) = ChunkUnit.isLineBreak (Char.ofNat n) ∧
      ChunkUnit.isSentenceEnd (byte (Char.ofNat n)) = ChunkUnit.isSentenceEnd (Char.ofNat n) := by
    decide
  obtain ⟨hblank, hreturn, hfeed, hbreak, hend⟩ := Char.ofNat_toNat c ▸ hall c.toNat hc
  exact ⟨hblank, hreturn, hfeed, hbreak, hend⟩

end ScriptValue

namespace ScriptValue.Piece

open Utf8

section Separators

variable {kind : ChunkKind} {d : Delimiters} (hd : ∀ c ∈ d.forKind? kind, IsAscii c)

include hd

theorem separator?_byte :
    (separator? kind d : Option UInt8) = (separator? kind d : Option Char).map byte := by
  have hchar (e : Char) (he : IsAscii e) : (ChunkUnit.ofChar? e : Option UInt8) = some (byte e) :=
    if_pos (Nat.lt_trans he (by decide))
  cases kind with
  | character => rfl
  | word => rfl
  | sentence => rfl
  | paragraph => rfl
  | line => rfl
  | item => exact hchar d.item (hd _ rfl)
  | column => exact hchar d.column (hd _ rfl)
  | row => exact hchar d.row (hd _ rfl)

theorem isAscii_of_separator? {e : Char} (he : separator? kind d = some e) :
    IsAscii e ∧ kind.padsWhenExtended = true := by
  cases kind with
  | line =>
    obtain rfl : '\n' = e := Option.some.inj he
    decide
  | item => exact ⟨hd e he, rfl⟩
  | column => exact ⟨hd e he, rfl⟩
  | row => exact ⟨hd e he, rfl⟩
  | _ => cases he

theorem exists_separator (hkind : kind.isDelimited = true) :
    ∃ e, IsAscii e ∧ (separator? kind d : Option Char) = some e ∧
      (separator? kind d : Option UInt8) = some (byte e) := by
  have hsome : ∃ e ∈ d.forKind? kind, (separator? kind d : Option Char) = some e := by
    cases kind with
    | item => exact ⟨d.item, rfl, rfl⟩
    | column => exact ⟨d.column, rfl, rfl⟩
    | row => exact ⟨d.row, rfl, rfl⟩
    | _ => cases hkind
  obtain ⟨e, he, hsep⟩ := hsome
  exact ⟨e, hd e he, hsep, by rw [separator?_byte hd, hsep]; rfl⟩

theorem separates_of_mem_utf8EncodeChar {c : Char} (hc : kind.isDelimited = true ∨ IsAscii c)
    {b : UInt8} (hb : b ∈ String.utf8EncodeChar c) : separates kind d b = separates kind d c := by
  by_cases hkind : kind.isDelimited = true
  · obtain ⟨e, he, hsep, hsep'⟩ := exists_separator hd hkind
    rw [separates_of_some hkind hsep, separates_of_some hkind hsep', Bool.eq_iff_iff, beq_iff_eq,
      beq_iff_eq]
    exact eq_byte_iff he hb
  · have hsame := same_byte (hc.resolve_left hkind)
    rw [utf8EncodeChar_of_isAscii (hc.resolve_left hkind), List.mem_singleton] at hb
    subst hb
    cases kind with
    | character => rfl
    | word => exact hsame.isBlank_eq
    | sentence => rfl
    | paragraph => exact hsame.isLineBreak_eq
    | line => exact hsame.isLineBreak_eq
    | item => exact absurd rfl hkind
    | column => exact absurd rfl hkind
    | row => exact absurd rfl hkind

end Separators

def encode (p : Piece Char) : Piece UInt8 :=
  ⟨Utf8.encode p.lead, Utf8.encode p.body, Utf8.encode p.close⟩

theorem units_encode (p : Piece Char) : p.encode.units = Utf8.encode p.units := by
  rw [units, units, encode_append, encode_append]
  rfl

theorem forall_mem_encode {t : Text} {Q : UInt8 → Prop}
    (h : ∀ c ∈ t, ∀ b ∈ String.utf8EncodeChar c, Q b) : ∀ b ∈ Utf8.encode t, Q b :=
  List.forall_mem_flatMap.2 h

theorem forall_mem_head?_encode {t : Text} {Q : UInt8 → Prop}
    (h : ∀ c ∈ t.head?, ∀ b ∈ String.utf8EncodeChar c, Q b) : ∀ b ∈ (Utf8.encode t).head?, Q b := by
  cases t with
  | nil => simp [Utf8.encode]
  | cons c t =>
    intro b hb
    rw [encode_cons, List.head?_append_of_ne_nil _ String.utf8EncodeChar_ne_nil] at hb
    exact h c rfl b (List.mem_of_mem_head? hb)

section Fits

variable {sep : Char → Bool} {sep' : UInt8 → Bool} {p : Piece Char} {us : Text}

theorem Run.encode (hsep : ∀ c ∈ p.units ++ us, ∀ b ∈ String.utf8EncodeChar c, sep' b = sep c)
    (h : Run sep p us) : Run sep' p.encode (Utf8.encode us) := by
  cases h with
  | @mk lead body _ hlead hne hbody hrest =>
    rw [append_units] at hsep
    simp only [List.forall_mem_append] at hsep
    obtain ⟨hseplead, hsepbody, -, hseprest⟩ := hsep
    refine .mk (forall_mem_encode fun c hc b hb => ?_) (by rwa [Ne, encode_eq_nil_iff])
      (forall_mem_encode fun c hc b hb => ?_) (forall_mem_head?_encode fun c hc b hb => ?_)
    · rw [hseplead c hc b hb, hlead c hc]
    · rw [hsepbody c hc b hb, hbody c hc]
    · rw [hseprest c (List.mem_of_mem_head? hc) b hb, hrest c hc]

theorem Terminated.encode {Closes : Text → Text → Prop} {Closes' : List UInt8 → List UInt8 → Prop}
    (hsep : ∀ c ∈ p.units ++ us, ∀ b ∈ String.utf8EncodeChar c, sep' b = sep c)
    (hcloses : Closes p.close us → Closes' (Utf8.encode p.close) (Utf8.encode us))
    (h : Terminated sep Closes p us) : Terminated sep' Closes' p.encode (Utf8.encode us) := by
  rw [append_units] at hsep
  simp only [List.forall_mem_append] at hsep
  obtain ⟨-, hsepbody, -⟩ := hsep
  cases h with
  | @mk body _ _ hbody hclose =>
    refine .mk (forall_mem_encode fun c hc b hb => ?_) (hcloses hclose)
    rw [hsepbody c hc b hb, hbody c hc]
  | @last body hbody hne =>
    refine .last (forall_mem_encode fun c hc b hb => ?_) (by rwa [Ne, encode_eq_nil_iff])
    rw [hsepbody c hc b hb, hbody c hc]

end Fits

section Ascii

theorem LineEnd.encode {close us : Text} (hascii : ∀ c ∈ close ++ us, IsAscii c)
    (h : LineEnd close us) : LineEnd (Utf8.encode close) (Utf8.encode us) := by
  rw [List.forall_mem_append] at hascii
  rw [encode_eq_map hascii.1]
  cases h with
  | @pair u v _ hu hv =>
    have hsame := same_byte (hascii.1 u (by simp))
    have hsame' := same_byte (hascii.1 v (by simp))
    exact .pair (hsame.isReturn_eq.trans hu) (hsame'.isFeed_eq.trans hv)
  | @single u _ hu hpair =>
    have hsame := same_byte (hascii.1 u (by simp))
    refine .single (hsame.isLineBreak_eq.trans hu) fun hreturn => ?_
    refine forall_mem_head?_encode fun c hc b hb => ?_
    have hcascii := hascii.2 c (List.mem_of_mem_head? hc)
    rw [utf8EncodeChar_of_isAscii hcascii, List.mem_singleton] at hb
    rw [hb, (same_byte hcascii).isFeed_eq]
    exact hpair (hsame.isReturn_eq.symm.trans hreturn) c hc

theorem endsSentence_byte {u : Char} {us : Text} (hu : IsAscii u) (hus : ∀ c ∈ us, IsAscii c) :
    endsSentence (byte u) (us.map byte) = endsSentence u us := by
  rw [endsSentence, endsSentence, (same_byte hu).isSentenceEnd_eq]
  cases us with
  | nil => rfl
  | cons v us =>
    have hv := (same_byte (hus v List.mem_cons_self)).isBlank_eq
    simp [hv]

theorem Unended.map_byte {us rest : Text} (hus : ∀ c ∈ us ++ rest, IsAscii c)
    (h : Unended us rest) : Unended (us.map byte) (rest.map byte) := by
  induction us with
  | nil => trivial
  | cons u us ih =>
    rw [List.cons_append, List.forall_mem_cons] at hus
    refine ⟨?_, ih hus.2 h.2⟩
    rw [← List.map_append, endsSentence_byte hus.1 hus.2]
    exact h.1

theorem Sentence.encode {p : Piece Char} {us : Text} (hascii : ∀ c ∈ p.units ++ us, IsAscii c)
    (h : Sentence p us) : Sentence p.encode (Utf8.encode us) := by
  rw [append_units] at hascii
  simp only [List.forall_mem_append] at hascii
  obtain ⟨hlascii, hbascii, -, hrascii⟩ := hascii
  have hblank {c : Char} (hc : IsAscii c) := (same_byte hc).isBlank_eq
  cases h with
  | @mk lead body u _ hlead hhead hbody hu hend =>
    rw [Piece.encode, encode_eq_map hlascii, encode_eq_map hbascii, encode_eq_map hrascii,
      List.map_append]
    have huascii : IsAscii u := hbascii u (by simp)
    refine .mk (List.forall_mem_map.2 fun c hc => ?_) ?_ ?_ ?_ (hend.imp ?_ ?_)
    · rw [hblank (hlascii c hc), hlead c hc]
    · rw [List.head?_map]
      rintro _ hv
      obtain ⟨c, hc, rfl⟩ := Option.map_eq_some_iff.1 hv
      rw [hblank (hbascii c (List.mem_append_left _ (List.mem_of_mem_head? hc))), hhead c hc]
    · exact hbody.map_byte hbascii
    · rw [hblank huascii, hu]
    · intro hends
      rw [endsSentence_byte huascii hrascii, hends]
    · intro hrest
      refine List.forall_mem_map.2 fun c hc => ?_
      rw [hblank (hrascii c hc), hrest c hc]

end Ascii

variable {kind : ChunkKind} {d : Delimiters}

theorem Fits.encode (hd : ∀ c ∈ d.forKind? kind, IsAscii c) {p : Piece Char} {us : Text}
    (hascii : kind.isDelimited = true ∨ ∀ c ∈ p.units ++ us, IsAscii c) (h : Fits kind d p us) :
    Fits kind d p.encode (Utf8.encode us) := by
  have hsep : ∀ c ∈ p.units ++ us, ∀ b ∈ String.utf8EncodeChar c,
      separates kind d b = separates kind d c :=
    fun c hc b hb => separates_of_mem_utf8EncodeChar hd (hascii.imp_right (· c hc)) hb
  by_cases hkind : kind.isDelimited = true
  · obtain ⟨e, he, hchar, hbyte⟩ := exists_separator hd hkind
    rw [fits_of_some hkind hchar] at h
    rw [fits_of_some hkind hbyte]
    rw [separates_of_some hkind hchar, separates_of_some hkind hbyte] at hsep
    refine h.encode hsep ?_
    intro hclose
    rw [hclose, encode_eq_map (List.forall_mem_singleton.2 he), List.map_singleton]
  · have hall := hascii.resolve_left hkind
    cases kind with
    | character =>
      cases h with
      | mk u =>
        rw [Piece.encode, encode_eq_map (t := [u]) fun c hc => hall c (List.mem_append_left us hc)]
        exact .mk (byte u) _
    | word => exact Run.encode hsep h
    | sentence => exact Sentence.encode hall h
    | paragraph => exact Run.encode hsep h
    | line =>
      refine Terminated.encode hsep (LineEnd.encode fun c hc => hall c ?_) h
      rw [append_units]
      exact List.mem_append_right _ (List.mem_append_right _ hc)
    | item => exact absurd rfl hkind
    | column => exact absurd rfl hkind
    | row => exact absurd rfl hkind

theorem Bare.encode {us : Text} (hascii : kind.isDelimited = true ∨ ∀ c ∈ us, IsAscii c)
    (h : Bare kind us) : Bare kind (Utf8.encode us) := by
  have hmap {f : Char → Bool} {g : UInt8 → Bool} (hfg : ∀ {c}, IsAscii c → g (byte c) = f c)
      (hall : ∀ c ∈ us, IsAscii c) (h : ∀ c ∈ us, f c = true) :
      ∀ b ∈ Utf8.encode us, g b = true := by
    rw [encode_eq_map hall]
    exact List.forall_mem_map.2 fun c hc => (hfg (hall c hc)).trans (h c hc)
  cases kind with
  | word => exact hmap (fun hc => (same_byte hc).isBlank_eq) (hascii.resolve_left nofun) h
  | sentence => exact hmap (fun hc => (same_byte hc).isBlank_eq) (hascii.resolve_left nofun) h
  | paragraph => exact hmap (fun hc => (same_byte hc).isLineBreak_eq) (hascii.resolve_left nofun) h
  | _ => exact encode_eq_nil_iff.2 h

theorem Layout.encode (hd : ∀ c ∈ d.forKind? kind, IsAscii c) {ps : List (Piece Char)} {us : Text}
    (hascii : kind.isDelimited = true ∨ ∀ c ∈ us, IsAscii c)
    (h : Layout (Fits kind d) (Bare kind) ps us) :
    Layout (Fits kind d) (Bare kind) (ps.map Piece.encode) (Utf8.encode us) := by
  induction h with
  | nil hbare => exact .nil (hbare.encode hascii)
  | @cons p ps us hp _ ih =>
    rw [encode_append, ← units_encode]
    refine .cons (hp.encode hd hascii) (ih (hascii.imp_right fun hall c hc => hall c ?_))
    exact List.mem_append_right _ hc

theorem cut_encode (hd : ∀ c ∈ d.forKind? kind, IsAscii c) {us : Text}
    (hascii : kind.isDelimited = true ∨ ∀ c ∈ us, IsAscii c) :
    cut kind d (Utf8.encode us) = (cut kind d us).map Piece.encode :=
  cut_eq_iff.2 (((reads_cut kind d).layout us).encode hd hascii)

end ScriptValue.Piece
