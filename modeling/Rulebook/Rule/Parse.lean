import Rulebook.Rule.Literal

/-!
# Reading rules

A rule is one or more terms joined by AND and OR; a term is a condition or a rule in
parentheses.  The two operators bind alike and group to the left.

The tokens are read one after the other, in one pass.  A `Reading` is what has been read
so far: for each open parenthesis the join that it stands in, and at the innermost level
what must come next.  A join is made as soon as its right side is complete, with a height
that follows from those of its sides, so a rule that is too high is refused there.
-/

namespace Rulebook

/-- A left side and an operator that wait for their right side. -/
structure Join where
  /-- The left side. -/
  left : MeasuredTree
  /-- The operator. -/
  op : LogicalOp
  /-- The position of the operator among the tokens. -/
  position : Nat
  deriving DecidableEq

/-- What has been read at the innermost level.  The join, if there is one, is the one
that the next term completes. -/
inductive Progress where
  /-- A term must come. -/
  | term (join : Option Join)
  /-- After a field, a comparator must come. -/
  | comparator (join : Option Join) (field : String)
  /-- After a comparator, a value must come. -/
  | value (join : Option Join) (field : String) (comparator : Comparator)
  /-- A whole rule has been read, which may go on. -/
  | rule (tree : MeasuredTree)
  deriving DecidableEq

/-- What has been read of a rule. -/
structure Reading where
  /-- How many tokens. -/
  position : Nat
  /-- For each open parenthesis, the innermost first, the join that it stands in. -/
  levels : List (Option Join)
  /-- What has been read at the innermost level. -/
  progress : Progress
  deriving DecidableEq

/-- A fault at the position of a token. -/
abbrev Fault := Nat × RuleFault

/-- Whether a token can name a field: it starts with a letter or an underscore, goes on
with letters, numbers and underscores, and is no operator. -/
def isFieldName (token : Token) : Bool :=
  match token.toList with
  | [] => false
  | c :: rest =>
      Text.isNameStart c && rest.all Text.isNameChar && (LogicalOp.ofKeyword? token).isNone

namespace Reading

/-- Nothing has been read. -/
def start : Reading := ⟨0, [], .term none⟩

/-- What stands at the innermost level after a term: the term itself, or its join with
what waited for it. -/
def completed (tree : MeasuredTree) : Option Join → Except Fault Progress
  | none => .ok (.rule tree)
  | some j =>
      match MeasuredTree.join? j.op j.left tree with
      | some joined => .ok (.rule joined)
      | none => .error (j.position, .tooHigh)

/-- Reads one token. -/
def step (r : Reading) (token : Token) : Except Fault Reading :=
  let next (levels : List (Option Join)) (progress : Progress) : Reading :=
    ⟨r.position + 1, levels, progress⟩
  match r.progress with
  | .term join =>
      if token = "(" then
        if r.levels.length < maxDepth then .ok (next (join :: r.levels) (.term none))
        else .error (r.position, .tooManyParentheses)
      else if isFieldName token then .ok (next r.levels (.comparator join token))
      else .error (r.position, .expectedField (some token))
  | .comparator join field =>
      match Comparator.ofSymbol? token with
      | some c => .ok (next r.levels (.value join field c))
      | none => .error (r.position, .unsupportedComparator token)
  | .value join field comparator =>
      match Literal.ofToken token with
      | .ok literal =>
          (completed (.leaf ⟨field, comparator, literal⟩) join).map (next r.levels)
      | .error fault => .error (r.position, fault)
  | .rule tree =>
      match LogicalOp.ofKeyword? token with
      | some op => .ok (next r.levels (.term (some ⟨tree, op, r.position⟩)))
      | none =>
          match r.levels with
          | [] => .error (r.position, .unexpected token)
          | join :: outer =>
              if token = ")" then (completed tree join).map (next outer)
              else .error (r.position, .unclosed (some token))

/-- The rule that has been read, if it may end here. -/
def finish (r : Reading) : Except Fault Tree :=
  match r.progress with
  | .term _ => .error (r.position, .expectedField none)
  | .comparator _ _ => .error (r.position, .expectedComparator)
  | .value _ _ _ => .error (r.position, .expectedValue none)
  | .rule tree =>
      if r.levels.isEmpty then .ok tree.tree else .error (r.position, .unclosed none)

/-- Reads tokens one after the other. -/
def steps : Reading → List Token → Except Fault Reading
  | r, [] => .ok r
  | r, token :: rest =>
      match r.step token with
      | .ok r' => r'.steps rest
      | .error fault => .error fault

end Reading

/-- The rule that a list of tokens is. -/
def Tree.ofTokens (tokens : List Token) : Except Error Tree :=
  if tokens.isEmpty then .error .emptyRule
  else match Reading.start.steps tokens with
    | .error (position, fault) => .error (.syntaxFault position fault)
    | .ok r =>
        match r.finish with
        | .error (position, fault) => .error (.syntaxFault position fault)
        | .ok tree => .ok tree

/-- The rule that a text is. -/
def Tree.parse (text : String) : Except Error Tree :=
  match Token.scan text with
  | .error e => .error e
  | .ok tokens => Tree.ofTokens tokens

end Rulebook
