import RelDoc.Text.Classes
import RelDoc.Text.Folding

namespace RelDoc

inductive CharSet where
  | empty
  | range (low high : Char)
  | digit
  | blank
  | word
  | union (a b : CharSet)
  | inter (a b : CharSet)
  | compl (a : CharSet)
  | folded (a : CharSet)

namespace CharSet

def contains : CharSet → Char → Bool
  | .empty, _ => false
  | .range low high, c => low.toNat ≤ c.toNat && c.toNat ≤ high.toNat
  | .digit, c => Text.isDecimal c
  | .blank, c => Text.isBlank c
  | .word, c => Text.isWord c
  | .union a b, c => a.contains c || b.contains c
  | .inter a b, c => a.contains c && b.contains c
  | .compl a, c => !a.contains c
  | .folded a, c => a.contains c || (Text.caseOrbit c.toNat).any fun n => a.contains (Char.ofNat n)

def single (c : Char) : CharSet := .range c c

def diff (a b : CharSet) : CharSet := .inter a (.compl b)

def symmDiff (a b : CharSet) : CharSet := .union (a.diff b) (b.diff a)

theorem contains_single (c d : Char) : (single c).contains d = (c.toNat == d.toNat) := by
  simp only [single, contains]
  rw [Bool.eq_iff_iff]
  simp only [Bool.and_eq_true, decide_eq_true_eq, beq_iff_eq]
  omega

end CharSet

end RelDoc
