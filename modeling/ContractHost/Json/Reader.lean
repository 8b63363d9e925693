import ContractHost.Json.Byte
import ContractHost.Json.Error

/-!
# Readers

A reader takes a value from the front of a byte sequence and leaves the rest, which is always
shorter: no reader succeeds without consuming a byte.  So a loop over readers ends.

`keyword` reads fixed bytes, `skipBlanks` drops the four blanks that JSON allows between tokens.
-/

namespace ContractHost.Json

/-- Reading a value of type `α` from the front of a byte sequence. -/
structure Reader (α : Type) where
  run : List UInt8 → Except ReadError (α × List UInt8)
  shortens : ∀ {s a rest}, run s = .ok (a, rest) → rest.length < s.length

/-- A blank between tokens: space, tab, line feed or carriage return. -/
def isBlank (b : UInt8) : Bool := b = 32 || b = 9 || b = 10 || b = 13

/-- The bytes from the first that is no blank. -/
def skipBlanks (s : List UInt8) : List UInt8 := s.dropWhile isBlank

theorem length_skipBlanks_le (s : List UInt8) : (skipBlanks s).length ≤ s.length :=
  (List.dropWhile_sublist isBlank).length_le

/-- Reads the bytes given and nothing else. -/
def keyword : List UInt8 → List UInt8 → Except ReadError (List UInt8)
  | [], s => .ok s
  | _ :: _, [] => .error .endOfInput
  | k :: ks, b :: s => if b = k then keyword ks s else .error .malformed

theorem length_keyword_le {ks s rest : List UInt8} (h : keyword ks s = .ok rest) :
    rest.length ≤ s.length := by
  fun_induction keyword ks s with
  | case1 s => cases h; exact Nat.le_refl _
  | case2 => cases h
  | case3 ks b s ih => exact Nat.le_succ_of_le (ih h)
  | case4 => cases h

namespace Reader

/-- Reads a value and applies a function to it. -/
def map {α β : Type} (f : α → β) (p : Reader α) : Reader β where
  run s :=
    match p.run s with
    | .ok (a, rest) => .ok (f a, rest)
    | .error e => .error e
  shortens := by
    intro s b rest h
    split at h
    next a rest' hp =>
      cases h
      exact p.shortens hp
    next => cases h

/-- Reads a value and lets a function accept or refuse it. -/
def check {α β : Type} (f : α → Except Mismatch β) (p : Reader α) : Reader β where
  run s :=
    match p.run s with
    | .ok (a, rest) =>
      match f a with
      | .ok b => .ok (b, rest)
      | .error m => .error (.mismatch m)
    | .error e => .error e
  shortens := by
    intro s b rest h
    split at h
    next a rest' hp =>
      split at h
      · cases h
        exact p.shortens hp
      · cases h
    next => cases h

end Reader

/-- Reads one value between blanks, and nothing behind it. -/
def readAll {α : Type} (p : Reader α) (s : List UInt8) : Except ReadError α :=
  match p.run s with
  | .error e => .error e
  | .ok (a, rest) => if (skipBlanks rest).isEmpty then .ok a else .error .malformed

end ContractHost.Json
