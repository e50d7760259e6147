import ThreeAddress.Node.Expression

/-!
Reading statements.  The first token tells which statement follows.  A token
that starts none is passed over, and so is every token that is expected but
missing: no sequence of tokens is refused.
-/

namespace ThreeAddress

/-- What a token starts when a statement is expected. -/
inductive Opening where
  | declaration (ty : Ty)
  | conditional (form : Conditional)
  | result
  | assignment
  | stray
deriving DecidableEq, Repr

/-- Keywords of types declare, three other keywords start statements of their
own, and any identifier is the target of an assignment. -/
def Token.opening (token : Token) : Opening :=
  match token.kind with
  | .keyword =>
      match Ty.ofKeyword? token.text with
      | some ty => .declaration ty
      | none =>
          if token.text = "if" then .conditional .ifThen
          else if token.text = "while" then .conditional .whileLoop
          else if token.text = "return" then .result
          else .stray
  | .identifier => .assignment
  | _ => .stray

namespace Reader

/-- What follows a keyword of a type: a name, perhaps an initializer, and a
semicolon.  Without a name nothing is declared and nothing is taken. -/
def declaration (ty : Ty) (position : Position) : Reader :=
  fun cursor =>
    match cursor.rest with
    | [] => (none, cursor)
    | token :: _ =>
        if token.kind = .identifier then
          let named := cursor.advance
          let (initializer, after) :=
            if named.sees .operator "=" then expression named.advance
            else (none, named)
          (some (.declaration ty ⟨token.text, some token.position⟩ initializer
            (some position)), after.skip .delimiter ";")
        else (none, cursor)

/-- What follows the target of an assignment: the sign, the value and a
semicolon. -/
def assignment (target : Token) : Reader :=
  fun cursor =>
    let (value, after) := expression (cursor.skip .operator "=")
    (some (.assignment ⟨target.text, some target.position⟩ value
      (some target.position)), after.skip .delimiter ";")

/-- What follows the keyword of a conditional statement: a condition in
parentheses and a body. -/
def conditional (form : Conditional) (position : Position) (body : Reader) :
    Reader :=
  fun cursor =>
    let (condition, after) := expression (cursor.skip .delimiter "(")
    let (content, last) := body (after.skip .delimiter ")")
    (some (.conditional form condition content (some position)), last)

/-- What follows the keyword of a return statement: perhaps a value, and a
semicolon. -/
def result (position : Position) : Reader :=
  fun cursor =>
    let (value, after) :=
      if cursor.sees .delimiter ";" then (none, cursor) else expression cursor
    (some (.result value (some position)), after.skip .delimiter ";")

/-- Statements up to the end of the tokens, or up to where `stop` holds, but at
most `count` of them.  Each takes a token, so that as many as there are tokens
suffice. -/
def sequence (statement : Reader) (stop : Cursor → Bool) :
    (count : Nat) → Cursor → List Node × Cursor
  | 0, cursor => ([], cursor)
  | count + 1, cursor =>
      if cursor.rest.isEmpty || stop cursor then ([], cursor)
      else
        let (first, after) := statement cursor
        let (others, last) := sequence statement stop count after
        (first.toList ++ others, last)

/-- What follows an opening brace. -/
def block (statement : Reader) (position : Position) : Reader :=
  fun cursor =>
    let (statements, last) :=
      sequence statement (fun ahead => ahead.sees .delimiter "\x7d")
        cursor.rest.length cursor
    (some (.compound .block statements (some position)),
      last.skip .delimiter "\x7d")

/-- The body of a conditional statement: a block or a single statement. -/
def body (statement : Reader) : Reader :=
  fun cursor =>
    match cursor.rest with
    | [] => statement cursor
    | token :: _ =>
        if token.is .delimiter "\x7b" then
          block statement token.position cursor.advance
        else statement cursor

/-- A statement, of which conditional ones have their bodies read by `body`. -/
def statementWith (body : Reader) : Reader :=
  fun cursor =>
    match cursor.rest with
    | [] => (none, cursor)
    | token :: _ =>
        match token.opening with
        | .declaration ty => declaration ty token.position cursor.advance
        | .conditional form =>
            conditional form token.position body cursor.advance
        | .result => result token.position cursor.advance
        | .assignment => assignment token cursor.advance
        | .stray => (none, cursor.advance)

/-- A statement with room for so many bodies inside each other.  Where there is
no room a body is left out, and its tokens stay ahead. -/
def statement : (room : Nat) → Reader
  | 0 => statementWith absent
  | room + 1 => statementWith (body (statement room))

end Reader

end ThreeAddress
