import DeployRegistry.Digest.Sha512

/-!
# Keyed digests

The keyed digest of a message under a digest that works on blocks: two passes, each with the key in
its own mask.
-/

namespace DeployRegistry.Digest

set_option autoImplicit false

/-- A digest with the number of bytes in a block, which no digest exceeds. -/
structure Blockwise where
  digest : List UInt8 → List UInt8
  block : Nat

def sha256 : Blockwise := ⟨Sha256.digest, 64⟩

def sha384 : Blockwise := ⟨Sha512.shortDigest, 128⟩

def sha512 : Blockwise := ⟨Sha512.digest, 128⟩

namespace Blockwise

variable (d : Blockwise)

/-- A key as one block: a longer key is first digested, a shorter one filled with zeros. -/
def keyBlock (key : List UInt8) : List UInt8 :=
  let short := if key.length ≤ d.block then key else d.digest key
  short ++ List.replicate (d.block - short.length) 0

def keyed (key message : List UInt8) : List UInt8 :=
  let block := d.keyBlock key
  let inner := d.digest (block.map (· ^^^ 0x36) ++ message)
  d.digest (block.map (· ^^^ 0x5c) ++ inner)

end Blockwise

end DeployRegistry.Digest
