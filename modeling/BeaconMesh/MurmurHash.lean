import BeaconMesh.Lib.Mixing
import BeaconMesh.Packet

set_option autoImplicit false

namespace BeaconMesh.MurmurHash

open Function LittleEndian Mixing

-- MurmurHash3.cpp, of which the repository holds two identical copies, on a
-- little-endian machine. The key is the bytes that key and len delimit.
abbrev Word := BitVec 32

def rotl32 (x : Word) (r : Nat) : Word := rotl x r

def getblock32 (data : Bytes) (i : Nat) : Word := BitVec.ofNat 32 (valueOf ((data.drop (4 * i)).take 4))

def fmix32 (h : Word) : Word :=
  let h := h ^^^ (h >>> 16)
  let h := h * 0x85ebca6b
  let h := h ^^^ (h >>> 13)
  let h := h * 0xc2b2ae35
  h ^^^ (h >>> 16)

def c1 : Word := 0xcc9e2d51

def c2 : Word := 0x1b873593

-- k1 *= c1; k1 = ROTL32(k1,15); k1 *= c2; in the body and in the tail
def mixKey (k1 : Word) : Word := rotl32 (k1 * c1) 15 * c2

def bodyRound (h1 k1 : Word) : Word := rotl32 (h1 ^^^ mixKey k1) 13 * 5 + 0xe6546b64

-- The loop counts i from -nblocks up to 0 behind the last block.
def body (data : Bytes) (nblocks : Nat) (seed : Word) : Word :=
  (List.range nblocks).foldl (fun h1 i => bodyRound h1 (getblock32 data i)) seed

def tailByte (tail : Bytes) (i : Nat) : Word := (tail.getD i 0).toBitVec.setWidth 32

-- switch(len & 3), every case falling through to the next.
def tailMix (tail : Bytes) (rest : Nat) (h1 : Word) : Word :=
  let k1 : Word := 0
  let k1 := if rest = 3 then k1 ^^^ (tailByte tail 2 <<< 16) else k1
  let k1 := if 2 ≤ rest then k1 ^^^ (tailByte tail 1 <<< 8) else k1
  if 1 ≤ rest then h1 ^^^ mixKey (k1 ^^^ tailByte tail 0) else h1

def murmurHash3X86_32 (key : Bytes) (seed : Word) : Word :=
  let len := key.length
  let nblocks := len / 4
  let h1 := body key nblocks seed
  let h1 := tailMix (key.drop (nblocks * 4)) (len &&& 3) h1
  fmix32 (h1 ^^^ BitVec.ofNat 32 len)

theorem mix_key_injective : Injective mixKey :=
  (mul_injective c2 0x56ed309b (by decide)).comp ((rotl_injective 15 (by decide)).comp (mul_injective c1 0xdee13bb1 (by decide)))

theorem round_state_injective (k1 : Word) : Injective fun h1 => bodyRound h1 k1 :=
  (add_injective 0xe6546b64).comp ((mul_injective 5 0xcccccccd (by decide)).comp
    ((rotl_injective 13 (by decide)).comp (xor_injective (mixKey k1))))

theorem round_key_injective (h1 : Word) : Injective (bodyRound h1) :=
  (add_injective 0xe6546b64).comp ((mul_injective 5 0xcccccccd (by decide)).comp
    ((rotl_injective 13 (by decide)).comp ((xor_key_injective h1).comp mix_key_injective)))

theorem fmix_injective : Injective fmix32 :=
  (xorshift_injective 16 (by decide)).comp ((mul_injective 0xc2b2ae35 0x7ed1b41d (by decide)).comp
    ((xorshift_injective 13 (by decide)).comp ((mul_injective 0x85ebca6b 0xa5cb9243 (by decide)).comp
      (xorshift_injective 16 (by decide)))))

def tailWord (tail : Bytes) (rest : Nat) : Word :=
  (if 2 ≤ rest then (if rest = 3 then (0 : Word) ^^^ (tailByte tail 2 <<< 16) else 0) ^^^ (tailByte tail 1 <<< 8)
    else if rest = 3 then (0 : Word) ^^^ (tailByte tail 2 <<< 16) else 0) ^^^ tailByte tail 0

theorem tail_mix_word (tail : Bytes) (rest : Nat) (h1 : Word) :
    tailMix tail rest h1 = if 1 ≤ rest then h1 ^^^ mixKey (tailWord tail rest) else h1 := rfl

theorem tail_state_injective (tail : Bytes) (rest : Nat) : Injective (tailMix tail rest) := by
  intro x y same
  rw [tail_mix_word, tail_mix_word] at same
  split at same
  · exact xor_injective _ same
  · exact same

theorem promoted_bit (byte : UInt8) (shift j i : Nat) (whole : shift % 8 = 0) (bit : i < 8) (inside : 8 * j + i < 32) :
    (byte.toBitVec.setWidth 32 <<< shift).getLsbD (8 * j + i) = (decide (shift = 8 * j) && byte.toBitVec.getLsbD i) := by
  rw [BitVec.getLsbD_shiftLeft, BitVec.getLsbD_setWidth]
  rcases Nat.lt_trichotomy shift (8 * j) with less | same | more
  · have beyond : byte.toBitVec.getLsbD (8 * j + i - shift) = false := BitVec.getLsbD_of_ge _ _ (by omega)
    rw [beyond, decide_eq_false (Nat.ne_of_lt less)]
    simp
  · simp [same, inside]
    omega
  · simp [show 8 * j + i < shift by omega, Nat.ne_of_gt more]

theorem present_bit (present : Prop) [Decidable present] (word : Word) (i : Nat) (bit : Bool) (here : word.getLsbD i = bit) :
    (if present then word else 0).getLsbD i = (decide present && bit) := by
  by_cases holds : present <;> simp [holds, here]

theorem tail_word_parts (tail : Bytes) (rest : Nat) : tailWord tail rest =
    (if rest = 3 then tailByte tail 2 <<< 16 else 0) ^^^ (if 2 ≤ rest then tailByte tail 1 <<< 8 else 0) ^^^ tailByte tail 0 := by
  unfold tailWord
  by_cases two : 2 ≤ rest <;> by_cases three : rest = 3 <;> simp [two, three]

theorem tail_word_byte (tail : Bytes) (rest j : Nat) (small : rest ≤ 3) (inside : j < rest) (i : Nat) (bit : i < 8) :
    (tailWord tail rest).getLsbD (8 * j + i) = (tail.getD j 0).toBitVec.getLsbD i := by
  have first : (tailByte tail 0).getLsbD (8 * j + i) = (decide (0 = 8 * j) && (tail.getD 0 0).toBitVec.getLsbD i) := by
    have plain := promoted_bit (tail.getD 0 0) 0 j i rfl bit (by omega)
    rwa [BitVec.shiftLeft_zero] at plain
  have second := present_bit (2 ≤ rest) (tailByte tail 1 <<< 8) _ _ (promoted_bit (tail.getD 1 0) 8 j i rfl bit (by omega))
  have third := present_bit (rest = 3) (tailByte tail 2 <<< 16) _ _ (promoted_bit (tail.getD 2 0) 16 j i rfl bit (by omega))
  rw [tail_word_parts, BitVec.getLsbD_xor, BitVec.getLsbD_xor, first, second, third]
  obtain rfl | ⟨rfl, two⟩ | ⟨rfl, rfl⟩ : j = 0 ∨ (j = 1 ∧ 2 ≤ rest) ∨ (j = 2 ∧ rest = 3) := by omega
  · simp only [Nat.mul_zero, decide_true, Bool.true_and, show decide (8 = 0) = false from rfl, show decide (16 = 0) = false from rfl,
      Bool.false_and, Bool.and_false, Bool.false_bne]
  · simp only [two, decide_true, Bool.true_and, show decide (16 = 8 * 1) = false from rfl, show decide (0 = 8 * 1) = false from rfl,
      Bool.false_and, Bool.and_false, Bool.false_bne, Bool.bne_false]
  · simp only [decide_true, Bool.true_and, show decide (8 = 8 * 2) = false from rfl, show decide (0 = 8 * 2) = false from rfl,
      Bool.false_and, Bool.and_false, Bool.bne_false]

theorem tail_word_injective (tail other : Bytes) (small : tail.length ≤ 3) (length : other.length = tail.length)
    (same : tailWord tail tail.length = tailWord other tail.length) : tail = other := by
  apply List.ext_getElem length.symm
  intro j inside insideOther
  apply UInt8.toBitVec_inj.mp
  apply BitVec.eq_of_getLsbD_eq
  intro i bit
  have left := tail_word_byte tail tail.length j small inside i bit
  have right := tail_word_byte other tail.length j small inside i bit
  rw [← same, left] at right
  simpa [inside, insideOther] using right

-- The words the body reads, in order.
def blocks (key : Bytes) : List Word := (List.range (key.length / 4)).map (getblock32 key)

theorem hash_eq (key : Bytes) (seed : Word) : murmurHash3X86_32 key seed =
    fmix32 (tailMix (key.drop (key.length / 4 * 4)) (key.length % 4) ((blocks key).foldl bodyRound seed) ^^^
      BitVec.ofNat 32 key.length) := by
  have low : key.length &&& 3 = key.length % 4 := Nat.and_two_pow_sub_one_eq_mod key.length 2
  rw [murmurHash3X86_32, low, body, blocks, List.foldl_map]

theorem getblock_left (left right : Bytes) (i : Nat) (inside : 4 * i + 4 ≤ left.length) :
    getblock32 (left ++ right) i = getblock32 left i := by
  rw [getblock32, List.drop_append_of_le_length (by omega), List.take_append_of_le_length (by rw [List.length_drop]; omega)]
  rfl

theorem getblock_right (left right : Bytes) (n i : Nat) (length : left.length = 4 * n) :
    getblock32 (left ++ right) (n + i) = getblock32 right i := by
  rw [getblock32, Nat.mul_add, ← length, List.drop_length_add_append]
  rfl

theorem blocks_append (left right : Bytes) (n : Nat) (length : left.length = 4 * n) :
    blocks (left ++ right) = blocks left ++ blocks right := by
  have split : (left ++ right).length / 4 = n + right.length / 4 := by
    rw [List.length_append, length]
    omega
  have whole : left.length / 4 = n := by omega
  rw [blocks, split, List.range_add, List.map_append, List.map_map, blocks, whole, blocks]
  congr 1
  · apply List.map_congr_left
    intro i member
    have bound := List.mem_range.mp member
    exact getblock_left left right i (by omega)
  · apply List.map_congr_left
    intro i _
    exact getblock_right left right n i length

theorem blocks_short (rest : Bytes) (short : rest.length < 4) : blocks rest = [] := by
  rw [blocks, Nat.div_eq_of_lt short]
  rfl

theorem blocks_single (block : Bytes) (length : block.length = 4) : blocks block = [BitVec.ofNat 32 (valueOf block)] := by
  rw [blocks, length]
  simp [getblock32, List.take_of_length_le (Nat.le_of_eq length)]

-- What is left to do after the blocks in front of the rest.
def finish (rest : Bytes) (len : Nat) (h1 : Word) : Word :=
  fmix32 (tailMix (rest.drop (rest.length / 4 * 4)) (rest.length % 4) ((blocks rest).foldl bodyRound h1) ^^^ BitVec.ofNat 32 len)

theorem finish_injective (rest : Bytes) (len : Nat) : Injective (finish rest len) :=
  fmix_injective.comp ((xor_injective (BitVec.ofNat 32 len)).comp
    ((tail_state_injective (rest.drop (rest.length / 4 * 4)) (rest.length % 4)).comp
      (foldl_injective bodyRound (blocks rest) round_state_injective)))

theorem hash_finish (before rest : Bytes) (aligned : before.length % 4 = 0) (seed : Word) :
    murmurHash3X86_32 (before ++ rest) seed = finish rest (before ++ rest).length ((blocks before).foldl bodyRound seed) := by
  have length : before.length = 4 * (before.length / 4) := by omega
  have skipped : (before ++ rest).length / 4 * 4 = before.length + rest.length / 4 * 4 := by
    rw [List.length_append]
    omega
  have low : (before ++ rest).length % 4 = rest.length % 4 := by
    rw [List.length_append]
    omega
  rw [hash_eq, finish, skipped, low, blocks_append before rest _ length, List.foldl_append, List.drop_length_add_append]

theorem hash_block (before block after : Bytes) (aligned : before.length % 4 = 0) (whole : block.length = 4) (seed : Word) :
    murmurHash3X86_32 (before ++ (block ++ after)) seed = finish after (before ++ (block ++ after)).length
      (bodyRound ((blocks before).foldl bodyRound seed) (BitVec.ofNat 32 (valueOf block))) := by
  have longer : (before ++ block).length % 4 = 0 := by
    rw [List.length_append]
    omega
  rw [← List.append_assoc, hash_finish (before ++ block) after longer, blocks_append before block (before.length / 4) (by omega),
    blocks_single block whole, List.foldl_append]
  rfl

theorem block_word_injective (block other : Bytes) (whole : block.length = 4) (length : other.length = 4)
    (same : BitVec.ofNat 32 (valueOf block) = BitVec.ofNat 32 (valueOf other)) : block = other := by
  have value : valueOf block = valueOf other := by
    have left := value_lt block
    have right := value_lt other
    rw [whole] at left
    rw [length] at right
    have numbers := congrArg BitVec.toNat same
    rwa [BitVec.toNat_ofNat, BitVec.toNat_ofNat, Nat.mod_eq_of_lt (b := 2 ^ 32) left, Nat.mod_eq_of_lt (b := 2 ^ 32) right] at numbers
  rw [← bytes_value block, ← bytes_value other, whole, length, value]

-- The seed is lost on no key.
theorem seed_bijective (key : Bytes) : Bijective fun seed => murmurHash3X86_32 key seed := by
  apply word_bijective
  intro seed other same
  have whole := fun start => hash_finish [] key rfl start
  exact finish_injective key key.length ((whole seed).symm.trans (same.trans (whole other)))

theorem block_differs (before block other after : Bytes) (aligned : before.length % 4 = 0) (whole : block.length = 4)
    (length : other.length = 4) (different : block ≠ other) (seed : Word) :
    murmurHash3X86_32 (before ++ (block ++ after)) seed ≠ murmurHash3X86_32 (before ++ (other ++ after)) seed := by
  have total : (before ++ (other ++ after)).length = (before ++ (block ++ after)).length := by simp [whole, length]
  intro same
  rw [hash_block before block after aligned whole, hash_block before other after aligned length, total] at same
  exact different (block_word_injective block other whole length (round_key_injective _ (finish_injective after _ same)))

theorem tail_differs (before tail other : Bytes) (aligned : before.length % 4 = 0) (short : tail.length < 4)
    (length : other.length = tail.length) (different : tail ≠ other) (seed : Word) :
    murmurHash3X86_32 (before ++ tail) seed ≠ murmurHash3X86_32 (before ++ other) seed := by
  have total : (before ++ other).length = (before ++ tail).length := by rw [List.length_append, List.length_append, length]
  have some : 1 ≤ tail.length := by
    by_contra none
    have left := List.length_eq_zero_iff.mp (show tail.length = 0 by omega)
    have right := List.length_eq_zero_iff.mp (show other.length = 0 by omega)
    exact different (left.trans right.symm)
  intro same
  rw [hash_finish before tail aligned, hash_finish before other aligned, total, finish, finish, blocks_short tail short,
    blocks_short other (by omega), length, Nat.div_eq_of_lt short, Nat.mod_eq_of_lt short] at same
  have mixed := xor_injective _ (fmix_injective same)
  simp only [Nat.zero_mul, List.drop_zero, List.foldl_nil, tail_mix_word, if_pos some] at mixed
  exact different (tail_word_injective tail other (by omega) length (mix_key_injective (xor_key_injective _ mixed)))

-- Keys of one length that agree outside one aligned group of four bytes, the
-- last group being the tail, have different hashes under every seed.
theorem groups_differ (key other : Bytes) (length : other.length = key.length) (group : Nat)
    (elsewhere : ∀ j : Nat, j / 4 ≠ group → key[j]? = other[j]?) (different : key ≠ other) (seed : Word) :
    murmurHash3X86_32 key seed ≠ murmurHash3X86_32 other seed := by
  have front : other.take (4 * group) = key.take (4 * group) := by
    apply List.ext_getElem?
    intro j
    by_cases inside : j < 4 * group
    · rw [List.getElem?_take_of_lt inside, List.getElem?_take_of_lt inside, elsewhere j (by omega)]
    · rw [List.getElem?_take_eq_none (not_lt.mp inside), List.getElem?_take_eq_none (not_lt.mp inside)]
  have back : other.drop (4 * group + 4) = key.drop (4 * group + 4) := by
    apply List.ext_getElem?
    intro j
    rw [List.getElem?_drop, List.getElem?_drop, elsewhere _ (by omega)]
  have split : ∀ bytes : Bytes, bytes.take (4 * group) ++ ((bytes.drop (4 * group)).take 4 ++ bytes.drop (4 * group + 4)) = bytes := by
    intro bytes
    rw [← List.drop_drop, List.take_append_drop, List.take_append_drop]
  have chunks : (key.drop (4 * group)).take 4 ≠ (other.drop (4 * group)).take 4 := by
    intro same
    exact different (by rw [← split key, ← split other, front, back, same])
  rw [← split key, ← split other, front, back]
  by_cases whole : 4 * group + 4 ≤ key.length
  · exact block_differs _ _ _ _ (by simp; omega) (by simp; omega) (by simp; omega) chunks seed
  · have nothing : key.drop (4 * group + 4) = [] := List.drop_eq_nil_of_le (by omega)
    rw [nothing, List.append_nil, List.append_nil]
    by_cases reached : 4 * group < key.length
    · exact tail_differs _ _ _ (by simp; omega) (by simp; omega) (by simp [length]) chunks seed
    · have gone : ∀ bytes : Bytes, bytes.length ≤ 4 * group → (bytes.drop (4 * group)).take 4 = [] := by
        intro bytes short
        rw [List.drop_eq_nil_of_le short, List.take_nil]
      exact absurd ((gone key (by omega)).trans (gone other (by omega)).symm) chunks

-- Two phone numbers that differ in their last digit.
def sampleNumber : Bytes := [0x2b, 0x34, 0x30, 0x37, 0x31, 0x32, 0x33, 0x34, 0x35, 0x36, 0x37, 0x38]

def nextNumber : Bytes := [0x2b, 0x34, 0x30, 0x37, 0x31, 0x32, 0x33, 0x34, 0x35, 0x36, 0x37, 0x39]

theorem neighbours_differ : murmurHash3X86_32 sampleNumber 112 ≠ murmurHash3X86_32 nextNumber 112 := by
  refine groups_differ sampleNumber nextNumber rfl 2 (fun j outside => ?_) (by decide) 112
  have first : ∀ i < 8, sampleNumber[i]? = nextNumber[i]? := by decide
  cases Nat.lt_or_ge j 8 with
  | inl early => exact first j early
  | inr late =>
      have beyond : 12 ≤ j := by omega
      rw [List.getElem?_eq_none beyond, List.getElem?_eq_none beyond]

-- Any hash can be reached by choosing four aligned bytes, in one way.
theorem block_preimage_unique (before after : Bytes) (aligned : before.length % 4 = 0) (seed target : Word) :
    ∃! block : Bytes, block.length = 4 ∧ murmurHash3X86_32 (before ++ (block ++ after)) seed = target := by
  let reach := fun k1 : Word => finish after (before.length + (4 + after.length)) (bodyRound ((blocks before).foldl bodyRound seed) k1)
  have injective : Injective reach := (finish_injective after _).comp (round_key_injective _)
  have lengths : ∀ block : Bytes, block.length = 4 → (before ++ (block ++ after)).length = before.length + (4 + after.length) := by
    intro block whole
    rw [List.length_append, List.length_append, whole]
  obtain ⟨k1, image⟩ := (word_bijective reach injective).surjective target
  have value : BitVec.ofNat 32 (valueOf (bytesOf 4 k1.toNat)) = k1 := by
    rw [value_bytes_of_lt 4 k1.toNat k1.isLt]
    simp
  refine ⟨bytesOf 4 k1.toNat, ⟨bytes_length 4 _, ?_⟩, ?_⟩
  · rw [hash_block before _ after aligned (bytes_length 4 _), lengths _ (bytes_length 4 _), value]
    exact image
  · rintro block ⟨whole, hit⟩
    rw [hash_block before block after aligned whole, lengths block whole, ← image] at hit
    apply block_word_injective block _ whole (bytes_length 4 _)
    rw [value]
    exact injective hit

theorem number_completed : ∃! block : Bytes, block.length = 4 ∧ murmurHash3X86_32 ([0x2b, 0x34, 0x30, 0x37] ++ (block ++ [])) 112 = 0xb41e6b64 :=
  block_preimage_unique [0x2b, 0x34, 0x30, 0x37] [] (by decide) 112 0xb41e6b64

example : murmurHash3X86_32 sampleNumber 112 = 0xb41e6b64 := by decide

end BeaconMesh.MurmurHash
