import SmartCard.Cipher.Block

/-! Cipher block chaining over any pair of block functions. -/

namespace SmartCard.Cipher

/-- Each block is combined with the previous result, `prev` at first, before `encrypt`. -/
def chain (encrypt : Block → Block) (prev : Block) : List Block → List Block
  | [] => []
  | b :: rest =>
    let c := encrypt (b ^^^ prev)
    c :: chain encrypt c rest

def unchain (decrypt : Block → Block) (prev : Block) : List Block → List Block
  | [] => []
  | c :: rest => (decrypt c ^^^ prev) :: unchain decrypt c rest

@[simp] theorem length_chain (encrypt : Block → Block) (prev : Block) (blocks : List Block) :
    (chain encrypt prev blocks).length = blocks.length := by
  induction blocks generalizing prev with
  | nil => rfl
  | cons b rest ih => simp [chain, ih]

end SmartCard.Cipher
