import Denn.Core.Sha256

/-!
# HMAC with SHA-256
-/

namespace Denn.Core.Hmac

def blockSize : ℕ := 64

/-- The bytes of the digest of some bytes. -/
def digest (bytes : List ℕ) : List ℕ :=
  let w := Sha256.hash bytes
  [w.a, w.b, w.c, w.d, w.e, w.f, w.g, w.h].flatMap fun word =>
    [24, 16, 8, 0].map fun shift => (word >>> shift) % 256

/-- A key that is longer than a block is hashed first. -/
def blockKey (key : List ℕ) : List ℕ :=
  (if blockSize < key.length then digest key else key).rightpad blockSize 0

def hmac (key message : List ℕ) : List ℕ :=
  let key := blockKey key
  digest (key.map (· ^^^ 0x5C) ++ digest (key.map (· ^^^ 0x36) ++ message))

end Denn.Core.Hmac
