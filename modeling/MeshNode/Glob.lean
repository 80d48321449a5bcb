/-!
# Patterns for names

A pattern matches a whole text. `?` stands for any one character and `*` for any run of characters;
`[…]` stands for one of the characters listed, of which two with a dash between them are a range,
and `[!…]` for any other. `**` stands for any run of whole path components and has to be a component
by itself; `**/` may also stand for nothing.

Matching goes through the tokens from left to right and tries the shortest run first. Once the text
is used up while a character is still asked for, no longer run can help, and the search ends.
-/

namespace MeshNode.Glob

/-- Some characters. -/
inductive CharSet where
  | single (c : Char)
  | range (low high : Char)
  deriving DecidableEq, Repr

/-- Whether a character is meant. -/
def CharSet.contains (c : Char) : CharSet → Bool
  | single d => c = d
  | range low high => low ≤ c ∧ c ≤ high

/-- A piece of a pattern. -/
inductive Token where
  | char (c : Char)
  | anyChar
  | oneOf (sets : List CharSet)
  | noneOf (sets : List CharSet)
  | anyRun
  | anyComponents
  deriving DecidableEq, Repr

/-- What is wrong with a pattern. -/
inductive Fault where
  | wildcards
  | recursiveWildcards
  | invalidRange
  deriving DecidableEq, Repr

/-- The text of a fault. -/
def Fault.message : Fault → String
  | wildcards => "wildcards are either regular `*` or recursive `**`"
  | recursiveWildcards => "recursive wildcards must form a single path component"
  | invalidRange => "invalid range pattern"

/-- A fault and the position it is reported at, in characters. -/
structure PatternError where
  position : Nat
  fault : Fault
  deriving DecidableEq, Repr

/-- The text of an error. -/
def PatternError.message (e : PatternError) : String :=
  s!"Pattern syntax error near position {e.position}: {e.fault.message}"

/-! ### Reading patterns -/

/-- The sets listed between brackets. -/
def charSets : List Char → List CharSet
  | low :: '-' :: high :: rest => .range low high :: charSets rest
  | c :: rest => .single c :: charSets rest
  | [] => []

/-- Splits what follows an opening bracket at the bracket that closes it, which is not the first
character inside. -/
def bracketed : List Char → Option (List Char × List Char)
  | [] => none
  | c :: rest =>
    match rest.dropWhile (· ≠ ']') with
    | _ :: after => some (c :: rest.takeWhile (· ≠ ']'), after)
    | [] => none

theorem length_of_bracketed {s inside after : List Char} (h : bracketed s = some (inside, after)) :
    after.length < s.length := by
  cases s with
  | nil => simp [bracketed] at h
  | cons c rest =>
    have hshorter : (rest.dropWhile (· ≠ ']')).length ≤ rest.length :=
      (List.dropWhile_suffix _).length_le
    rw [bracketed] at h
    revert h hshorter
    generalize rest.dropWhile (· ≠ ']') = tail
    intro h hshorter
    cases tail with
    | nil => cases h
    | cons d after =>
      cases h
      rw [List.length_cons] at hshorter ⊢
      omega

/-- Adds a token for whole components, unless one was just added after some other token. The tokens
stand in reverse. -/
def addComponents (tokens : List Token) : List Token :=
  match tokens with
  | .anyComponents :: _ :: _ => tokens
  | _ => .anyComponents :: tokens

/-- Reads what is left of a pattern after `position` characters, of which `previous` is the last.
The tokens read so far stand in reverse. -/
def readTokens (position : Nat) (previous : Option Char) (tokens : List Token) (s : List Char) :
    Except PatternError (List Token) :=
  match s with
  | [] => .ok tokens.reverse
  | '?' :: rest => readTokens (position + 1) '?' (.anyChar :: tokens) rest
  | '*' :: '*' :: '*' :: _ => .error ⟨position + 2, .wildcards⟩
  | '*' :: '*' :: rest =>
    if previous.all (· = '/') then
      match rest with
      | [] => .ok (addComponents tokens).reverse
      | '/' :: rest => readTokens (position + 3) '/' (addComponents tokens) rest
      | _ => .error ⟨position + 2, .recursiveWildcards⟩
    else .error ⟨position - 1, .recursiveWildcards⟩
  | '*' :: rest => readTokens (position + 1) '*' (.anyRun :: tokens) rest
  | '[' :: '!' :: rest =>
    match h : bracketed rest with
    | some (inside, after) =>
      have := length_of_bracketed h
      readTokens (position + inside.length + 3) ']' (.noneOf (charSets inside) :: tokens) after
    | none => .error ⟨position, .invalidRange⟩
  | '[' :: rest =>
    match h : bracketed rest with
    | some (inside, after) =>
      have := length_of_bracketed h
      readTokens (position + inside.length + 2) ']' (.oneOf (charSets inside) :: tokens) after
    | none => .error ⟨position, .invalidRange⟩
  | c :: rest => readTokens (position + 1) c (.char c :: tokens) rest
termination_by s.length

/-- Reads a pattern. -/
def ofText (pattern : String) : Except PatternError (List Token) :=
  readTokens 0 none [] pattern.toList

/-! ### Matching -/

/-- The outcome of an attempt to match. -/
inductive Verdict where
  | matched
  | mismatched
  /-- The text ended while a character was asked for. -/
  | exhausted
  deriving DecidableEq, Repr

/-- Whether a token that stands for one character stands for this one. -/
def Token.accepts : Token → Char → Bool
  | char d, c => c = d
  | anyChar, _ => true
  | oneOf sets, c => sets.any (·.contains c)
  | noneOf sets, c => !sets.any (·.contains c)
  | anyRun, _ => true
  | anyComponents, _ => true

/-- Tries `next` on the text after each further character, or after each further component. At the
end of the text it is asked once more. -/
def tryLater (whole : Bool) (next : List Char → Verdict) : List Char → Verdict
  | [] => next []
  | c :: s =>
    if whole ∧ c ≠ '/' then tryLater whole next s
    else
      match next s with
      | .mismatched => tryLater whole next s
      | v => v

/-- Tries `next` on the text and then after longer and longer runs. -/
def tryRuns (whole : Bool) (next : List Char → Verdict) (s : List Char) : Verdict :=
  match next s with
  | .mismatched => tryLater whole next s
  | v => v

/-- Matches tokens with a text. -/
def matchTokens : List Token → List Char → Verdict
  | [], s => if s = [] then .matched else .mismatched
  | .anyRun :: tokens, s => tryRuns false (matchTokens tokens) s
  | .anyComponents :: tokens, s => tryRuns true (matchTokens tokens) s
  | _ :: _, [] => .exhausted
  | token :: tokens, c :: s => if token.accepts c then matchTokens tokens s else .mismatched

/-- Whether a pattern matches a text. -/
def matches? (pattern : List Token) (text : String) : Bool :=
  matchTokens pattern text.toList = .matched

end MeshNode.Glob
