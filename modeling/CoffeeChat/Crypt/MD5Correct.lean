import CoffeeChat.Crypt.MD5Lemmas
import CoffeeChat.Crypt.MD5Words

/-!
# The digest of a string

`MD5 md; md.update(s); md.toString()` folds `transform` over the blocks of the padded message, in
either data model (`hash_eq`). Its low halves are the words of the algorithm as long as no
`ROTATE_LEFT` brings down a bit that does not fit. That is so in ILP32, where nothing is above the
low half. In LP64 carries and complements stay in the high half and come back down.
-/

namespace CoffeeChat.MD5

open Lib Lib.Absorb Lib.Endian Lib.Fold RFC1321

variable {m : DataModel}

/-! ## The padded message -/

/-- The state words after `reset`. -/
def start (m : DataModel) : Words m.width := ⟨0x67452301, 0xefcdab89, 0x98badcfe, 0x10325476⟩

theorem lows_start (m : DataModel) : lows (start m) = initial := by
  cases m <;> rfl

theorem width_le (m : DataModel) : 32 ≤ m.width := by
  cases m <;> decide

theorem index_reset (o : MD5 m) : o.reset.index = 0 := by
  rw [index_eq]
  show (0#m.width).toNat / 8 % 64 = 0
  rw [BitVec.toNat_zero]

theorem absorber_reset (o : MD5 m) : o.reset.absorber = ⟨start m, []⟩ := by
  show Absorber.mk (start m) (o.reset.buffer.take o.reset.index) = _
  rw [index_reset, List.take_zero]

/-- The padding of `final` is that of the algorithm, up to the length. -/
theorem padding_eq {o : MD5 m} {length : Nat} (h : o.index = length % 64) :
    PADDING.take o.padLen = 0x80 :: List.replicate ((119 - length % 64) % 64) 0 := by
  have hpadLen : o.padLen = (119 - length % 64) % 64 + 1 := by
    rw [padLen, h]
    split <;> omega
  have hzeros : (119 - length % 64) % 64 ≤ 63 := by omega
  rw [hpadLen, PADDING, List.take_succ_cons, List.take_replicate, Nat.min_eq_left hzeros]

/-- The counts of an object that has absorbed a message in one `update` encode its length. -/
theorem bits_eq {o memory : MD5 m} {s : Bytes} (hs : s.length < 2 ^ (m.width - 1))
    (h : Updated memory.reset s o) : encode [o.count0, o.count1] 8 = leBytes 8 (8 * s.length) := by
  have hcount0 : o.count0 = BitVec.ofNat m.width s.length <<< 3 :=
    h.count0.trans (BitVec.zero_add _)
  have hcount1 : o.count1 = BitVec.ofNat m.width s.length >>> 29 := by
    rw [h.count1, hcount0, if_neg (BitVec.lt_irrefl _)]
    exact BitVec.zero_add _
  have hlow : leBytes 4 o.count0.toNat = leBytes 4 (8 * s.length) := by
    have hdvd : 256 ^ 4 ∣ 2 ^ m.width := by cases m <;> decide
    have hzero : memory.reset.count0.toNat = 0 := BitVec.toNat_zero
    rw [h.count0, toNat_add_bits, hzero, Nat.zero_add, ← leBytes_mod, Nat.mod_mod_of_dvd _ hdvd,
      leBytes_mod]
  have hhigh : o.count1.toNat = 8 * s.length / 256 ^ 4 := by
    have hlt : s.length < 2 ^ m.width :=
      Nat.lt_of_lt_of_le hs (Nat.pow_le_pow_right (by decide) (Nat.sub_le _ _))
    rw [hcount1, BitVec.toNat_ushiftRight, BitVec.toNat_ofNat, Nat.mod_eq_of_lt hlt,
      Nat.shiftRight_eq_div_pow]
    omega
  show encodeWord o.count0 ++ encodeWord o.count1 ++ [] = _
  rw [List.append_nil, encodeWord_eq (width_le m), encodeWord_eq (width_le m), leBytes_low,
    leBytes_low, hlow, hhigh]
  exact (leBytes_add 4 4 _).symm

/-- What `final` appends to a message is its padding. -/
theorem closing_eq {o memory : MD5 m} {s : Bytes} (hs : s.length < 2 ^ (m.width - 1))
    (h : Updated memory.reset s o) : o.closing = padding s.length := by
  have hindex : o.index = s.length % 64 := by
    rw [index_of_count h.count0, index_reset, Nat.zero_add]
  rw [closing, padding_eq hindex, bits_eq hs h]
  rfl

theorem closed_eq {o memory : MD5 m} {s : Bytes} (hs : s.length < 2 ^ (m.width - 1))
    (h : Updated memory.reset s o) : o.closed = (paddedBlocks s).foldl transform (start m) := by
  rw [closed, h.absorber, absorber_reset, ← absorb_append, closing_eq hs h, absorb_eq (by decide)]
  rfl

/-- Encoding the state words writes the bytes of their low halves. -/
theorem encode_state (v : Words m.width) : encode [v.a, v.b, v.c, v.d] 16 = bytes (lows v) := by
  show encodeWord v.a ++ (encodeWord v.b ++ (encodeWord v.c ++ (encodeWord v.d ++ []))) = _
  simp only [encodeWord_eq (width_le m), List.append_nil, bytes, lows, List.append_assoc]

/-- The code folds `transform` over the blocks of the padded message. -/
theorem hash_eq (memory : MD5 m) {s : Bytes} (hs : s.length < 2 ^ (m.width - 1)) :
    hash memory s = .ok (bytesToHexString
      (bytes (lows ((paddedBlocks s).foldl transform (start m))))) := by
  have hreturns : Returns (hash memory s) fun str ↦ str = bytesToHexString
      (bytes (lows ((paddedBlocks s).foldl transform (start m)))) := by
    refine (update_spec memory.reset hs).bind fun o h ↦ ?_
    refine (toString_spec h.finished).bind fun r hr ↦ ?_
    obtain ⟨hstr, hfinal⟩ := hr
    refine ⟨_, rfl, ?_⟩
    rw [hstr, hfinal.digestBytes, encode_state, closed_eq hs h]
  obtain ⟨str, hstr, rfl⟩ := hreturns
  exact hstr

/-! ## Working values -/

/-- The values that the statements of `transform` assign to their registers. -/
def assigned {w : Nat} (state : Words w) (block : Bytes) : List (BitVec w) :=
  outputs (execute (decode block)) (fun v o ↦ (execute (decode block) v o).get o.a) state statements

/-- The values that all statements assign in the run over a string. -/
def workingValues (m : DataModel) (s : Bytes) : List (List (Ulong m)) :=
  outputs transform assigned (start m) (paddedBlocks s)

/-- No rotation of a `transform` brings down a bit that does not fit. -/
def CleanBlock {w : Nat} (state : Words w) (block : Bytes) : Prop :=
  Along (fun v o ↦ Fits (sum (decode block) v o) o.s) (execute (decode block)) state statements

/-- No rotation of the run over a string brings down a bit that does not fit. -/
def Clean (m : DataModel) (s : Bytes) : Prop :=
  Along CleanBlock transform (start m) (paddedBlocks s)

/-- The low halves of all working values are those of the algorithm. -/
def WorkingAgrees (m : DataModel) (s : Bytes) : Prop :=
  (workingValues m s).map (fun values ↦ values.map low) = RFC1321.workingValues s

theorem lows_execute_decode {w : Nat} (hw : 32 ≤ w) (block : Bytes) (v : Words w) (o : Operation)
    (ho : o ∈ statements) (hfits : Fits (sum (decode block) v o) o.s) :
    lows (execute (decode block) v o) = step (word block) (lows v) o := by
  rw [lows_execute hw (wellFormed_of_mem ho) hfits, low_decode_eq hw]

/-- A clean block is compressed as the algorithm does it. -/
theorem lows_transform {w : Nat} (hw : 32 ≤ w) {state : Words w} {block : Bytes}
    (h : CleanBlock state block) : lows (transform state block) = compress (lows state) block := by
  rw [transform, lows_add hw, foldl_abs (lows_execute_decode hw block) h, statements_eq, compress]

/-- A block is clean exactly when all that its statements assign agrees. -/
theorem assigned_iff {w : Nat} (hw : 32 ≤ w) (state : Words w) (block : Bytes) :
    (assigned state block).map low = RFC1321.assigned (lows state) block ↔
      CleanBlock state block := by
  rw [RFC1321.assigned, ← statements_eq]
  refine outputs_iff state (lows_execute_decode hw block) fun v o ho ↦ ?_
  rw [← low_assigned_iff hw (wellFormed_of_mem ho), low_decode_eq hw]

/-- A run is clean exactly when all that its statements assign agrees. -/
theorem workingAgrees_iff (m : DataModel) (s : Bytes) : WorkingAgrees m s ↔ Clean m s := by
  rw [WorkingAgrees, RFC1321.workingValues, ← lows_start m]
  exact outputs_iff (start m) (fun _ _ _ ↦ lows_transform (width_le m))
    (fun state block _ ↦ assigned_iff (width_le m) state block)

/-- A clean run ends in the digest of the algorithm. -/
theorem hash_of_clean (memory : MD5 m) {s : Bytes} (hs : s.length < 2 ^ (m.width - 1))
    (h : Clean m s) : hash memory s = .ok (hexDigest s) := by
  have hlows : lows ((paddedBlocks s).foldl transform (start m)) =
      (paddedBlocks s).foldl compress initial := by
    rw [foldl_abs (fun _ _ _ ↦ lows_transform (width_le m)) h, lows_start]
  rw [hash_eq memory hs, hlows, bytesToHexString_eq]
  rfl

/-- In words of 32 bits every run is clean. -/
theorem clean_ilp32 (s : Bytes) : Clean .ilp32 s :=
  Along.of_forall (fun state block ↦
    Along.of_forall (fun v o ↦ Fits.of_width (sum (decode block) v o) o.s) state statements)
    (start .ilp32) (paddedBlocks s)

/-- In LP64 the digest of the empty string is wrong already. -/
theorem hash_nil_lp64 :
    hash (zeroed .lp64) [] = .ok "e4c23762ed2823a27e62a64b95c024e7".toList := by
  decide +kernel

/-- The code computes the digests of all strings exactly in ILP32. In either data model it computes
that of a string where every rotation of the run fits, and nowhere else are its working values
those of the algorithm. -/
theorem hash_digest (m : DataModel) :
    ((∀ (memory : MD5 m) (s : Input m), hash memory s.bytes = .ok (hexDigest s.bytes)) ↔
      m = .ilp32) ∧
    ∀ (memory : MD5 m) (s : Input m),
      (Clean m s.bytes → hash memory s.bytes = .ok (hexDigest s.bytes)) ∧
        (WorkingAgrees m s.bytes ↔ Clean m s.bytes) := by
  refine ⟨⟨fun hall ↦ ?_, ?_⟩, fun memory s ↦
    ⟨hash_of_clean memory s.length_lt, workingAgrees_iff m s.bytes⟩⟩
  · cases m with
    | ilp32 => rfl
    | lp64 =>
        have hempty := hall (zeroed .lp64) ⟨[], Nat.two_pow_pos 63⟩
        rw [hash_nil_lp64, hexDigest_nil] at hempty
        exact absurd hempty (by decide)
  · rintro rfl memory s
    exact hash_of_clean memory s.length_lt (clean_ilp32 s.bytes)

theorem not_hash_digest_nil : hash (zeroed .lp64) [] ≠ .ok (hexDigest []) := by
  rw [hash_nil_lp64, hexDigest_nil]
  decide

end CoffeeChat.MD5
