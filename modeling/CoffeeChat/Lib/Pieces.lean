import Mathlib.Data.List.Basic

/-!
# Frames written in part

A writer hands over one frame after another, and of each a prefix is taken. Every element that
arrives carries the tag of its frame, so that a piece of one frame is not mistaken for one of
another. The stream is `Untorn` if it consists of whole frames in the order they were handed
over, with at most one incomplete frame behind them. That is so exactly when nothing is taken of
any frame behind one that was cut short (`untorn_iff`).
-/

namespace Lib.Pieces

variable {ι α : Type}

/-- A frame, with how much of it was taken. -/
structure Piece (ι α : Type) where
  tag : ι
  frame : List α
  taken : Nat
  taken_le : taken ≤ frame.length

/-- The frame was cut short: some of it was taken, but not all. -/
def Piece.Cut (p : Piece ι α) : Prop := 0 < p.taken ∧ p.taken < p.frame.length

/-- The elements of the frame, with its tag. -/
def Piece.whole (p : Piece ι α) : List (ι × α) := p.frame.map (Prod.mk p.tag)

/-- The elements taken, with the tag. -/
def Piece.piece (p : Piece ι α) : List (ι × α) := (p.frame.take p.taken).map (Prod.mk p.tag)

/-- What arrives. -/
def wire (ps : List (Piece ι α)) : List (ι × α) := ps.flatMap Piece.piece

/-- What arrives is a sequence of whole frames of which something was taken, in order, and behind
them at most one frame that is not whole. -/
def Untorn (ps : List (Piece ι α)) : Prop :=
  ∃ done rest, wire ps = done.flatMap Piece.whole ++ rest ∧
    List.Sublist done ps ∧ (∀ p ∈ done, 0 < p.taken) ∧
      (rest = [] ∨ ∃ p ∈ ps, rest <+: p.whole ∧ rest ≠ p.whole)

variable {p : Piece ι α} {ps : List (Piece ι α)}

@[simp] theorem wire_nil : wire ([] : List (Piece ι α)) = [] := rfl

@[simp] theorem wire_cons : wire (p :: ps) = p.piece ++ wire ps := rfl

theorem mem_piece {x : ι × α} (h : x ∈ p.piece) : x.1 = p.tag := by
  obtain ⟨a, _, rfl⟩ := List.mem_map.mp h
  rfl

theorem mem_whole {x : ι × α} (h : x ∈ p.whole) : x.1 = p.tag := by
  obtain ⟨a, _, rfl⟩ := List.mem_map.mp h
  rfl

/-- What arrives carries the tag of one of the frames. -/
theorem mem_wire {x : ι × α} (h : x ∈ wire ps) : x.1 ∈ ps.map Piece.tag := by
  obtain ⟨q, hq, hx⟩ := List.mem_flatMap.mp h
  rw [mem_piece hx]
  exact List.mem_map_of_mem hq

theorem piece_isPrefix_whole (p : Piece ι α) : p.piece <+: p.whole :=
  (List.take_prefix p.taken p.frame).map _

theorem piece_eq_nil (h : p.taken = 0) : p.piece = [] := by
  simp [Piece.piece, h]

theorem piece_ne_nil (h : 0 < p.taken) : p.piece ≠ [] := by
  have hle := p.taken_le
  intro hnil
  have hlen := congrArg List.length hnil
  simp only [Piece.piece, List.length_map, List.length_take, List.length_nil] at hlen
  omega

/-- All of a frame was taken when it was not cut short. -/
theorem piece_eq_whole (h : 0 < p.taken) (hcut : ¬ p.Cut) : p.piece = p.whole := by
  have hall : p.frame.length ≤ p.taken := Nat.le_of_not_lt fun hlt ↦ hcut ⟨h, hlt⟩
  rw [Piece.piece, List.take_of_length_le hall, Piece.whole]

theorem piece_ne_whole (hcut : p.Cut) : p.piece ≠ p.whole := by
  intro h
  have hlen := congrArg List.length h
  simp only [Piece.piece, Piece.whole, List.length_map, List.length_take] at hlen
  have := hcut.2
  omega

/-- Nothing arrives of frames of which nothing is taken. -/
theorem wire_eq_nil (h : ∀ p ∈ ps, p.taken = 0) : wire ps = [] :=
  List.flatMap_eq_nil_iff.mpr fun p hp ↦ piece_eq_nil (h p hp)

theorem taken_eq_zero (h : wire ps = []) : ∀ p ∈ ps, p.taken = 0 := by
  intro p hp
  by_contra hpos
  exact piece_ne_nil (Nat.pos_of_ne_zero hpos) (List.flatMap_eq_nil_iff.mp h p hp)

theorem untorn_of_nil (h : wire ps = []) : Untorn ps :=
  ⟨[], [], h, List.nil_sublist ps, by simp, Or.inl rfl⟩

/-! ## One frame more -/

/-- A frame behind which nothing is torn, if it was not cut short or nothing follows it. -/
theorem untorn_cons_of (h : Untorn ps) (hcut : p.Cut → ∀ q ∈ ps, q.taken = 0) :
    Untorn (p :: ps) := by
  by_cases hc : p.Cut
  · -- cut short: it is the incomplete frame at the end
    refine ⟨[], p.piece, ?_, List.nil_sublist _, by simp, Or.inr ⟨p, List.mem_cons_self, ?_⟩⟩
    · rw [wire_cons, wire_eq_nil (hcut hc)]
      simp
    · exact ⟨piece_isPrefix_whole p, piece_ne_whole hc⟩
  · obtain ⟨done, rest, hwire, hsub, hpos, hrest⟩ := h
    have hrest' : rest = [] ∨ ∃ q ∈ p :: ps, rest <+: q.whole ∧ rest ≠ q.whole := by
      rcases hrest with hnil | ⟨q, hq, hpre⟩
      · exact Or.inl hnil
      · exact Or.inr ⟨q, List.mem_cons_of_mem p hq, hpre⟩
    by_cases hzero : p.taken = 0
    · refine ⟨done, rest, ?_, hsub.cons p, hpos, hrest'⟩
      rw [wire_cons, piece_eq_nil hzero, hwire, List.nil_append]
    · have hp : 0 < p.taken := Nat.pos_of_ne_zero hzero
      refine ⟨p :: done, rest, ?_, hsub.cons_cons p, ?_, hrest'⟩
      · rw [wire_cons, piece_eq_whole hp hc, hwire, List.flatMap_cons, List.append_assoc]
      · intro q hq
        rcases List.mem_cons.mp hq with rfl | hq
        · exact hp
        · exact hpos q hq

/-- An incomplete frame at the end of what arrives of `ps` is one of theirs. -/
theorem rest_of_wire {front rest : List (ι × α)} (htag : p.tag ∉ ps.map Piece.tag)
    (hwire : wire ps = front ++ rest)
    (hrest : rest = [] ∨ ∃ q ∈ p :: ps, rest <+: q.whole ∧ rest ≠ q.whole) :
    rest = [] ∨ ∃ q ∈ ps, rest <+: q.whole ∧ rest ≠ q.whole := by
  cases rest with
  | nil => exact Or.inl rfl
  | cons x rest =>
      rcases hrest with hnil | ⟨q, hq, hpre, hne⟩
      · exact Or.inl hnil
      · refine Or.inr ⟨q, ?_, hpre, hne⟩
        rcases List.mem_cons.mp hq with rfl | hq
        · have hx : x ∈ wire ps := by
            rw [hwire]
            simp
          have hx' : x.1 = q.tag := mem_whole (hpre.subset List.mem_cons_self)
          exact absurd (hx' ▸ mem_wire hx) htag
        · exact hq

/-- Two lists that begin with all elements of a tag, which the rest of the first does not have,
begin alike. -/
theorem whole_eq_piece {tail tail' : List (ι × α)} (htail : ∀ x ∈ tail, x.1 ≠ p.tag)
    (h : p.piece ++ tail = p.whole ++ tail') : p.piece = p.whole ∧ tail = tail' := by
  have hlen : p.whole.length ≤ p.piece.length := by
    by_contra hlt
    obtain ⟨more, hmore⟩ := piece_isPrefix_whole p
    have hmore' : more ≠ [] := by
      rintro rfl
      rw [List.append_nil] at hmore
      rw [hmore] at hlt
      exact hlt (Nat.le_refl _)
    rw [← hmore, List.append_assoc, List.append_cancel_left_eq] at h
    obtain ⟨x, hx⟩ := List.exists_mem_of_ne_nil more hmore'
    have hxtail : x ∈ tail := by
      rw [h]
      exact List.mem_append_left _ hx
    have hxwhole : x ∈ p.whole := by
      rw [← hmore]
      exact List.mem_append_right _ hx
    exact htail x hxtail (mem_whole hxwhole)
  have heq : p.piece = p.whole :=
    (piece_isPrefix_whole p).eq_of_length (Nat.le_antisymm (piece_isPrefix_whole p).length_le hlen)
  rw [heq, List.append_cancel_left_eq] at h
  exact ⟨heq, h⟩

/-- What is untorn behind a frame with a tag of its own is untorn without it, and nothing follows
that frame if it was cut short. -/
theorem untorn_of_cons (htag : p.tag ∉ ps.map Piece.tag) (h : Untorn (p :: ps)) :
    Untorn ps ∧ (p.Cut → ∀ q ∈ ps, q.taken = 0) := by
  obtain ⟨done, rest, hwire, hsub, hpos, hrest⟩ := h
  have hother (x : ι × α) (hx : x ∈ wire ps) : x.1 ≠ p.tag :=
    fun heq ↦ htag (heq ▸ mem_wire hx)
  rw [wire_cons] at hwire
  by_cases hzero : p.taken = 0
  · -- nothing of it arrives, and it is none of the whole frames
    rw [piece_eq_nil hzero, List.nil_append] at hwire
    refine ⟨⟨done, rest, hwire, ?_, hpos, rest_of_wire htag hwire hrest⟩, ?_⟩
    · rcases List.sublist_cons_iff.mp hsub with hsub | ⟨done', rfl, _⟩
      · exact hsub
      · exact absurd (hpos p List.mem_cons_self) (by omega)
    · intro hcut
      exact absurd hcut.1 (by omega)
  · have hp : 0 < p.taken := Nat.pos_of_ne_zero hzero
    obtain ⟨x, xs, hx⟩ := List.exists_cons_of_ne_nil (piece_ne_nil hp)
    have hxtag : x.1 = p.tag := mem_piece (by rw [hx]; exact List.mem_cons_self)
    cases done with
    | nil =>
        -- its elements belong to the incomplete frame, and so does all that follows
        rw [List.flatMap_nil, List.nil_append] at hwire
        have hnil : wire ps = [] := by
          rcases hrest with hnil | ⟨q, _, hpre, _⟩
          · rw [hnil] at hwire
            exact (List.append_eq_nil_iff.mp hwire).2
          · rw [← hwire] at hpre
            have hq : p.tag = q.tag := by
              rw [← hxtag]
              refine mem_whole (hpre.subset ?_)
              rw [hx]
              simp
            refine List.eq_nil_iff_forall_not_mem.mpr fun y hy ↦ hother y hy ?_
            rw [hq]
            exact mem_whole (hpre.subset (List.mem_append_right _ hy))
        exact ⟨untorn_of_nil hnil, fun _ ↦ taken_eq_zero hnil⟩
    | cons d done =>
        -- the first whole frame is the one itself
        have hd : d.whole ≠ [] := by
          have hlen := d.taken_le
          have hdpos := hpos d List.mem_cons_self
          intro hnil
          have := congrArg List.length hnil
          simp [Piece.whole] at this
          rw [this] at hlen
          simp at hlen
          omega
        obtain ⟨y, ys, hy⟩ := List.exists_cons_of_ne_nil hd
        have hytag : y.1 = d.tag := mem_whole (by rw [hy]; exact List.mem_cons_self)
        have hxy : x = y := by
          rw [hx, List.flatMap_cons, hy] at hwire
          exact (List.cons.inj hwire).1
        rcases List.sublist_cons_iff.mp hsub with hsub | ⟨done', heq, hsub⟩
        · have hmem := List.mem_map_of_mem (f := Piece.tag) (hsub.subset List.mem_cons_self)
          rw [← hytag, ← hxy, hxtag] at hmem
          exact absurd hmem htag
        · obtain ⟨rfl, rfl⟩ := List.cons.inj heq
          rw [List.flatMap_cons, List.append_assoc] at hwire
          obtain ⟨hwhole, htail⟩ := whole_eq_piece hother hwire
          refine ⟨⟨done, rest, htail, hsub, fun q hq ↦ hpos q (List.mem_cons_of_mem _ hq),
            rest_of_wire htag htail hrest⟩, fun hcut ↦ ?_⟩
          exact absurd hwhole (piece_ne_whole hcut)

/-- With a tag for each frame, the stream is untorn exactly when nothing is taken of any frame
behind one that was cut short. -/
theorem untorn_iff (htags : (ps.map Piece.tag).Nodup) :
    Untorn ps ↔ ps.Pairwise fun p q => p.Cut → q.taken = 0 := by
  induction ps with
  | nil => exact iff_of_true (untorn_of_nil rfl) List.Pairwise.nil
  | cons p ps ih =>
      obtain ⟨htag, htags⟩ := List.nodup_cons.mp htags
      rw [List.pairwise_cons, ← ih htags]
      constructor
      · intro h
        obtain ⟨hrest, hcut⟩ := untorn_of_cons htag h
        exact ⟨fun q hq hc ↦ hcut hc q hq, hrest⟩
      · rintro ⟨hcut, hrest⟩
        exact untorn_cons_of hrest fun hc q hq ↦ hcut q hq hc

end Lib.Pieces
