import RelDoc.Pattern.CharSet

/-!
Patterns and the texts they are found in. A set of positions of a text is a number whose bits are
the members, and a pattern takes the set of positions where it may start to the set where it may
end, so that a search tries all starts at once.
-/

namespace RelDoc

inductive Assertion where
  | textStart
  | textEnd
  | lineStart
  | lineEnd
  | wordEdge
  | notWordEdge

inductive Pattern where
  | empty
  | one (set : CharSet)
  | assertion (a : Assertion)
  | seq (p q : Pattern)
  | alt (p q : Pattern)
  | repeated (p : Pattern) (least : Nat) (most : Option Nat)

namespace Assertion

def wordAt (text : Array Char) (i : Nat) : Bool := (text[i]?.map Text.isWord).getD false

def wordBefore (text : Array Char) : Nat → Bool
  | 0 => false
  | i + 1 => wordAt text i

def newlineBefore (text : Array Char) : Nat → Bool
  | 0 => true
  | i + 1 => text[i]? == some '\n'

def holds (text : Array Char) (i : Nat) : Assertion → Bool
  | .textStart => i == 0
  | .textEnd => i == text.size
  | .lineStart => newlineBefore text i
  | .lineEnd => i == text.size || text[i]? == some '\n'
  | .wordEdge => wordBefore text i != wordAt text i
  | .notWordEdge => wordBefore text i == wordAt text i

end Assertion

namespace Pattern

def positions (test : Nat → Bool) : Nat → Nat
  | 0 => 0
  | n + 1 => if test n then 1 <<< n ||| positions test n else positions test n

theorem testBit_positions (test : Nat → Bool) (n i : Nat) :
    (positions test n).testBit i = (decide (i < n) && test i) := by
  induction n with
  | zero => simp [positions]
  | succ n ih =>
    simp only [positions]
    by_cases hi : i = n
    · subst hi; split <;> simp_all [Nat.one_shiftLeft]
    · have hn : i < n + 1 ↔ i < n := by omega
      split <;> simp_all [Nat.testBit_or, Nat.one_shiftLeft, Ne.symm hi]

/-- Every set reached by applying `f` again and again, stopping when nothing is new. -/
def closure (f : Nat → Nat) : Nat → Nat → Nat
  | 0, s => s
  | fuel + 1, s =>
    let next := s ||| f s
    if next = s then s else closure f fuel next

def upTo (f : Nat → Nat) : Nat → Nat → Nat
  | 0, s => s
  | n + 1, s => s ||| f (upTo f n s)

def iterate (f : Nat → Nat) : Nat → Nat → Nat
  | 0, s => s
  | n + 1, s => iterate f n (f s)

def ends (text : Array Char) : Pattern → Nat → Nat
  | .empty, starts => starts
  | .one set, starts =>
    (starts &&& positions (fun i => (text[i]?.map set.contains).getD false) text.size) <<< 1
  | .assertion a, starts => starts &&& positions (fun i => a.holds text i) (text.size + 1)
  | .seq p q, starts => ends text q (ends text p starts)
  | .alt p q, starts => ends text p starts ||| ends text q starts
  | .repeated p least none, starts =>
    closure (ends text p) (text.size + 1) (iterate (ends text p) least starts)
  | .repeated p least (some most), starts =>
    upTo (ends text p) (most - least) (iterate (ends text p) least starts)

def isFoundIn (p : Pattern) (text : String) : Bool :=
  let cs := text.toList.toArray
  ends cs p (1 <<< (cs.size + 1) - 1) != 0

end Pattern

end RelDoc
