import PatchStack.Text.Basic

set_option autoImplicit false

/-!
# Similar texts

How alike two texts are is measured by the characters that they share in order: their longest
common block is found, then the longest common blocks on either side of it, and so on. Twice
the number of shared characters over the sum of the lengths is the ratio. Suggestions for a
misspelled name are the candidates with the highest ratios.

In a text of two hundred characters or more, a character that occurs in more than one percent
of the places is popular. A block does not start at a popular character, but grows over it.

## Main definitions

* `PatchStack.Text.sharedCount` — the number of shared characters.
* `PatchStack.Text.Ratio` — how alike two texts are.
* `PatchStack.Text.closest` — the candidates most similar to a text.
-/

namespace PatchStack.Text

/-- A block that two texts share: where it begins in either, and its length. -/
structure Block where
  /-- The position in the first text. -/
  first : Nat
  /-- The position in the second text. -/
  second : Nat
  /-- The length. -/
  size : Nat

/-- Is the character popular in `t`? -/
def isPopular (t : Text) (c : Char) : Bool :=
  t.length ≥ 200 && t.count c > t.length / 100 + 1

/-- The lengths of the common blocks that end at the next character `c` of the first text, one
for each position of the second text, from the lengths at the character before. -/
def nextRow (isStart : Char → Bool) (c : Char) (second : Text) (row : List Nat) : List Nat :=
  List.zipWith (fun d k => if d = c && isStart d then k + 1 else 0) second (0 :: row)

/-- The longest block among `best` and those of a row that ends at position `i` of the first
text. Of equally long ones the earlier wins. -/
def longestInRow (i : Nat) (row : List Nat) (best : Block) : Block :=
  row.zipIdx.foldl (fun best (k, j) => if best.size < k then ⟨i + 1 - k, j + 1 - k, k⟩ else best)
    best

/-- The longest block among `best` and those that end in `first`, whose position is `i`. -/
def longestFrom (isStart : Char → Bool) (second : Text) :
    Text → Nat → List Nat → Block → Block
  | [], _, _, best => best
  | c :: rest, i, row, best =>
    let row := nextRow isStart c second row
    longestFrom isStart second rest (i + 1) row (longestInRow i row best)

/-- The length of the common beginning of two texts. -/
def commonLead : Text → Text → Nat
  | c :: r, d :: q => if c = d then commonLead r q + 1 else 0
  | _, _ => 0

/-- The longest common block over characters that can start one, grown to both sides as far as
the two texts agree. -/
def longestBlock (isStart : Char → Bool) (first second : Text) : Block :=
  let b := longestFrom isStart second first 0 (second.map fun _ => 0) ⟨0, 0, 0⟩
  let back := commonLead (first.take b.first).reverse (second.take b.second).reverse
  let ahead := commonLead (first.drop (b.first + b.size)) (second.drop (b.second + b.size))
  ⟨b.first - back, b.second - back, back + b.size + ahead⟩

/-- The number of characters in the common blocks of two texts. Each round takes a block of at
least one character out of `first`, so as many rounds as it has characters are enough. -/
def sharedIn (isStart : Char → Bool) : Nat → Text → Text → Nat
  | 0, _, _ => 0
  | rounds + 1, first, second =>
    let b := longestBlock isStart first second
    if b.size = 0 then 0
    else
      sharedIn isStart rounds (first.take b.first) (second.take b.second) + b.size +
        sharedIn isStart rounds (first.drop (b.first + b.size)) (second.drop (b.second + b.size))

/-- The number of characters that two texts share in order. -/
def sharedCount (first second : Text) : Nat :=
  sharedIn (fun c => !isPopular second c) first.length first second

/-- A ratio of two numbers, kept exact. -/
structure Ratio where
  /-- The part. -/
  part : Nat
  /-- The whole, never zero where ratios are compared. -/
  whole : Nat

/-- Is the one ratio less than the other? -/
def Ratio.blt (a b : Ratio) : Bool := a.part * b.whole < b.part * a.whole

/-- How alike two texts are; two empty texts are as alike as can be. -/
def ratio (first second : Text) : Ratio :=
  if first.length + second.length = 0 then ⟨1, 1⟩
  else ⟨2 * sharedCount first second, first.length + second.length⟩

/-- The least ratio of a suggestion: three fifths. -/
def leastRatio : Ratio := ⟨3, 5⟩

/-- Of two rated candidates, does the first come before the second? The higher ratio comes
first, and of equal ratios the greater text. -/
def comesBefore (a b : Ratio × Text) : Bool :=
  if b.1.blt a.1 then true
  else if a.1.blt b.1 then false
  else b.2.precedes a.2

/-- At most `limit` of the candidates that are most similar to `word`, the most similar first. -/
def closest (word : Text) (candidates : List Text) (limit : Nat) : List Text :=
  let rated := candidates.map fun c => (ratio c word, c)
  let alike := rated.filter fun r => !r.1.blt leastRatio
  ((alike.mergeSort comesBefore).take limit).map (·.2)

end PatchStack.Text
