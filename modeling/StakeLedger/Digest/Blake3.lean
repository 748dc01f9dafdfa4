import StakeLedger.Bytes.Basic

/-!
The BLAKE3 digest, unkeyed, 32 bytes long. Chunks of 1024 bytes are the leaves of a binary tree in
which every left subtree is complete.
-/

namespace StakeLedger.Blake3

def initial : List UInt32 :=
  [0x6A09E667, 0xBB67AE85, 0x3C6EF372, 0xA54FF53A, 0x510E527F, 0x9B05688C, 0x1F83D9AB, 0x5BE0CD19]

def chunkStart : UInt32 := 1
def chunkEnd : UInt32 := 2
def parent : UInt32 := 4
def root : UInt32 := 8

/-- The order of the message words in each round after the first, from that of the round before. -/
def permutation : List Nat := [2, 6, 3, 10, 7, 0, 4, 13, 1, 11, 12, 5, 9, 14, 15, 8]

def rotateRight (x n : UInt32) : UInt32 := (x >>> n) ||| (x <<< (32 - n))

def word (ws : Array UInt32) (i : Nat) : UInt32 := ws.getD i 0

def mix (s : Array UInt32) (a b c d : Nat) (x y : UInt32) : Array UInt32 :=
  let a' := word s a + word s b + x
  let d' := rotateRight (word s d ^^^ a') 16
  let c' := word s c + d'
  let b' := rotateRight (word s b ^^^ c') 12
  let a'' := a' + b' + y
  let d'' := rotateRight (d' ^^^ a'') 8
  let c'' := c' + d''
  let b'' := rotateRight (b' ^^^ c'') 7
  (((s.setIfInBounds a a'').setIfInBounds b b'').setIfInBounds c c'').setIfInBounds d d''

def quarters : List (Nat × Nat × Nat × Nat) := [
  (0, 4, 8, 12), (1, 5, 9, 13), (2, 6, 10, 14), (3, 7, 11, 15),
  (0, 5, 10, 15), (1, 6, 11, 12), (2, 7, 8, 13), (3, 4, 9, 14)]

def round (s message : Array UInt32) : Array UInt32 :=
  quarters.zipIdx.foldl
    (fun s ((a, b, c, d), i) => mix s a b c d (word message (2 * i)) (word message (2 * i + 1))) s

def rounds : Nat → Array UInt32 → Array UInt32 → Array UInt32
  | 0, s, _ => s
  | n + 1, s, message =>
    rounds n (round s message) (permutation.map (word message)).toArray

structure Node where
  chain : List UInt32
  block : Bytes
  counter : Nat
  flags : UInt32

def Node.compress (n : Node) (extra : UInt32) : List UInt32 :=
  let padded := n.block ++ List.replicate (64 - n.block.length) 0
  let message := ((groups 4 padded).map Bytes.toUInt32).toArray
  let start := n.chain ++ initial.take 4
    ++ [UInt32.ofNat n.counter, UInt32.ofNat (n.counter / 0x100000000), UInt32.ofNat n.block.length,
      n.flags ||| extra]
  let mixed := (rounds 7 start.toArray message).toList
  List.zipWith (· ^^^ ·) (mixed.take 8) (mixed.drop 8)

def chunkNode (counter : Nat) (chunk : Bytes) : Node :=
  let blocks := if chunk.isEmpty then [[]] else groups 64 chunk
  let lead := blocks.dropLast.foldl
    (fun (chain, flag) block => (Node.compress ⟨chain, block, counter, flag⟩ 0, (0 : UInt32)))
    (initial, chunkStart)
  ⟨lead.1, blocks.getLastD [], counter, lead.2 ||| chunkEnd⟩

def parentNode (left right : Node) : Node :=
  ⟨initial, (left.compress 0 ++ right.compress 0).flatMap Bytes.ofUInt32, 0, parent⟩

/-- A stack of complete subtrees with their heights, the smallest first. -/
def push (stack : List (Nat × Node)) (height : Nat) (node : Node) : List (Nat × Node) :=
  match stack with
  | (h, left) :: rest =>
    if h = height then push rest (height + 1) (parentNode left node) else (height, node) :: stack
  | [] => [(height, node)]

def joined (stack : List (Nat × Node)) (last : Node) : Node :=
  stack.foldl (fun right (_, left) => parentNode left right) last

def digest (message : Bytes) : Bytes :=
  let chunks := if message.isEmpty then [[]] else groups 1024 message
  let nodes := chunks.zipIdx.map fun (chunk, i) => chunkNode i chunk
  let stack := nodes.dropLast.foldl (fun stack node => push stack 0 node) []
  let top := joined stack (nodes.getLastD (chunkNode 0 []))
  (top.compress root).flatMap Bytes.ofUInt32

end StakeLedger.Blake3
