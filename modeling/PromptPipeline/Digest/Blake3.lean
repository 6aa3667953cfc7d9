/-!
# The BLAKE3 hash function

The digest of a byte string. The input is cut into chunks, which are the leaves of a binary tree;
every left subtree is full and at least as large as its right sibling. A node of the tree is a
compression that has yet to be done, so that the root can be compressed in a way of its own.
-/

namespace PromptPipeline.Blake3

/-- The eight words that lead from one compression to the next. -/
abbrev ChainingValue := Vector UInt32 8

/-- The sixteen words of a block, and of the state of a compression. -/
abbrev Block := Vector UInt32 16

/-- The chaining value of a start. -/
def initialValue : ChainingValue :=
  #v[0x6A09E667, 0xBB67AE85, 0x3C6EF372, 0xA54FF53A, 0x510E527F, 0x9B05688C, 0x1F83D9AB,
    0x5BE0CD19]

/-- The order in which a round takes the words of the block of the round before. -/
def schedule : Vector (Fin 16) 16 :=
  #v[2, 6, 3, 10, 7, 0, 4, 13, 1, 11, 12, 5, 9, 14, 15, 8]

/-- The block for the next round. -/
def permute (block : Block) : Block :=
  schedule.map block.get

/-- The word turned to the right; `count` is between 1 and 31. -/
def rotateRight (word count : UInt32) : UInt32 :=
  (word >>> count) ||| (word <<< (32 - count))

/-- Mixes two words of the block into four words of the state. -/
def mix (s : Block) (a b c d : Fin 16) (x y : UInt32) : Block :=
  let wa := s[a] + s[b] + x
  let wd := rotateRight (s[d] ^^^ wa) 16
  let wc := s[c] + wd
  let wb := rotateRight (s[b] ^^^ wc) 12
  let wa := wa + wb + y
  let wd := rotateRight (wd ^^^ wa) 8
  let wc := wc + wd
  let wb := rotateRight (wb ^^^ wc) 7
  (((s.set a wa).set b wb).set c wc).set d wd

/-- Mixes the block into the columns and then into the diagonals of the state. -/
def round (s m : Block) : Block :=
  let s := mix s 0 4 8 12 m[0] m[1]
  let s := mix s 1 5 9 13 m[2] m[3]
  let s := mix s 2 6 10 14 m[4] m[5]
  let s := mix s 3 7 11 15 m[6] m[7]
  let s := mix s 0 5 10 15 m[8] m[9]
  let s := mix s 1 6 11 12 m[10] m[11]
  let s := mix s 2 7 8 13 m[12] m[13]
  mix s 3 4 9 14 m[14] m[15]

/-- A number of rounds. -/
def rounds : Nat → (s m : Block) → Block
  | 0, s, _ => s
  | count + 1, s, m => rounds count (round s m) (permute m)

/-- A compression that has yet to be done. -/
structure Node where
  value : ChainingValue
  block : Block
  counter : UInt64
  length : UInt32
  flags : UInt32

/-- Marks the first block of a chunk. -/
def chunkStart : UInt32 := 1

/-- Marks the last block of a chunk. -/
def chunkEnd : UInt32 := 2

/-- Marks a node with subtrees. -/
def parent : UInt32 := 4

/-- Marks the root. -/
def root : UInt32 := 8

/-- The chaining value that a node gives. -/
def Node.compress (node : Node) : ChainingValue :=
  let v := node.value
  let i := initialValue
  let s := rounds 7
    #v[v[0], v[1], v[2], v[3], v[4], v[5], v[6], v[7], i[0], i[1], i[2], i[3],
      node.counter.toUInt32, (node.counter >>> 32).toUInt32, node.length, node.flags]
    node.block
  #v[s[0] ^^^ s[8], s[1] ^^^ s[9], s[2] ^^^ s[10], s[3] ^^^ s[11], s[4] ^^^ s[12],
    s[5] ^^^ s[13], s[6] ^^^ s[14], s[7] ^^^ s[15]]

/-- The words of up to 64 bytes, each with its lowest byte first; missing bytes are zero. -/
def blockOf (bytes : List UInt8) : Block :=
  let a := bytes.toArray
  Vector.ofFn fun i =>
    let byte (k : Nat) : UInt32 := (a[4 * i.val + k]?.getD 0).toUInt32
    byte 0 ||| (byte 1 <<< 8) ||| (byte 2 <<< 16) ||| (byte 3 <<< 24)

/-- The last block of the chunk of the given index, after all others have been compressed. -/
def chunk (index : Nat) (value : ChainingValue) (start : UInt32) (bytes : List UInt8) : Node :=
  if bytes.length ≤ 64 then
    ⟨value, blockOf bytes, index.toUInt64, bytes.length.toUInt32, start ||| chunkEnd⟩
  else
    let next := Node.compress ⟨value, blockOf (bytes.take 64), index.toUInt64, 64, start⟩
    chunk index next 0 (bytes.drop 64)
termination_by bytes.length
decreasing_by simp; omega

/-- The number of bytes in a chunk. -/
def chunkLength : Nat := 1024

/-- The length of the left subtree over `n` bytes: the greatest power of two less than `n`. -/
def leftLength (n : Nat) : Nat := Nat.pow 2 (n - 1).log2

theorem leftLength_pos (n : Nat) : 0 < leftLength n :=
  Nat.two_pow_pos _

theorem leftLength_lt {n : Nat} (h : chunkLength < n) : leftLength n < n := by
  have hn : n - 1 ≠ 0 := by simp only [chunkLength] at h; omega
  have : leftLength n ≤ n - 1 := Nat.log2_self_le hn
  simp only [chunkLength] at h
  omega

/-- The top of the tree over the bytes, whose first chunk has the given index. -/
def subtree (index : Nat) (bytes : List UInt8) : Node :=
  if bytes.length ≤ chunkLength then chunk index initialValue chunkStart bytes
  else
    let size := leftLength bytes.length
    let left := (subtree index (bytes.take size)).compress
    let right := (subtree (index + size / chunkLength) (bytes.drop size)).compress
    ⟨initialValue, left ++ right, 0, 64, parent⟩
termination_by bytes.length
decreasing_by
  · have := leftLength_lt (Nat.lt_of_not_le (by assumption))
    simp [List.length_take]
    omega
  · have := leftLength_pos bytes.length
    have h : ¬bytes.length ≤ chunkLength := by assumption
    simp only [chunkLength] at h
    simp [List.length_drop]
    omega

/-- The bytes of a word, lowest byte first. -/
def wordBytes (word : UInt32) : List UInt8 :=
  [word.toUInt8, (word >>> 8).toUInt8, (word >>> 16).toUInt8, (word >>> 24).toUInt8]

/-- The 32 bytes of the digest. -/
def digest (bytes : List UInt8) : List UInt8 :=
  let top := subtree 0 bytes
  (Node.compress { top with counter := 0, flags := top.flags ||| root }).toList.flatMap wordBytes

/-- A byte as two hexadecimal digits. -/
def hexByte (byte : UInt8) : List Char :=
  [Nat.digitChar (byte.toNat / 16), Nat.digitChar (byte.toNat % 16)]

/-- The digest as hexadecimal text. -/
def hexDigest (bytes : List UInt8) : String :=
  .ofList ((digest bytes).flatMap hexByte)

end PromptPipeline.Blake3
