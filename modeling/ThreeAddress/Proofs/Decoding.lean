import ThreeAddress.Compilation.Document
import ThreeAddress.Proofs.Shape

/-!
Reading a tree back from its document.  What a node lacks is left out of its
document, and the parts that it has are listed without their names.  A part of a
conditional statement that stands alone is still known for what it is in a
parsed tree, since a condition is an expression there and a body is none.
-/

namespace ThreeAddress

namespace Json

/-- Put a member before those with larger keys. -/
def insertMember (key : String) (value : Json) :
    List (String × Json) → List (String × Json)
  | [] => [(key, value)]
  | other :: rest =>
      if key ≤ other.1 then (key, value) :: other :: rest
      else other :: insertMember key value rest

mutual

/-- The form of a value in which the members of objects are sorted by their
keys, at any depth.  Values that differ only in the order of members have the
same canonical form. -/
def canonical : Json → Json
  | arr elements => arr (canonicalAll elements)
  | obj members => obj (canonicalMembers members)
  | null => null
  | bool value => bool value
  | num value => num value
  | str value => str value

def canonicalAll : List Json → List Json
  | [] => []
  | element :: rest => element.canonical :: canonicalAll rest

def canonicalMembers : List (String × Json) → List (String × Json)
  | [] => []
  | (key, value) :: rest =>
      insertMember key value.canonical (canonicalMembers rest)

end

/-- Members with different keys may be put in place in any order. -/
theorem insertMember_comm {first second : String} (hkeys : first ≠ second)
    (left right : Json) (members : List (String × Json)) :
    insertMember first left (insertMember second right members) =
      insertMember second right (insertMember first left members) := by
  induction members with
  | nil =>
      simp only [insertMember]
      grind
  | cons member rest ih =>
      simp only [insertMember]
      grind [insertMember]

theorem canonicalMembers_perm {members others : List (String × Json)}
    (hperm : members.Perm others) (hkeys : (members.map Prod.fst).Nodup) :
    canonicalMembers members = canonicalMembers others := by
  induction hperm with
  | nil => rfl
  | cons member hperm ih =>
      rw [canonicalMembers, canonicalMembers, ih (List.nodup_cons.mp hkeys).2]
  | swap first second rest =>
      have hne : second.1 ≠ first.1 := by
        intro heq
        simp [heq] at hkeys
      simp only [canonicalMembers]
      exact insertMember_comm hne _ _ _
  | trans hfirst hsecond ihfirst ihsecond =>
      exact (ihfirst hkeys).trans
        (ihsecond ((hfirst.map Prod.fst).nodup_iff.mp hkeys))

end Json

def Ty.ofName? (text : String) : Option Ty :=
  [.int, .float, .double, .char, .string, .bool, .unknown].find? fun ty =>
    ty.name == text

theorem Ty.ofName?_name (ty : Ty) : Ty.ofName? ty.name = some ty := by
  cases ty <;> rfl

/-- What the document of a node tells: its tag, its value, the nodes listed in
it, and its place. -/
structure Fields where
  tag : String := ""
  value : Option String := none
  children : List Node := []
  position : Option Position := none
deriving Repr

namespace Fields

def part? : List Node → Option (Option Node)
  | [] => some none
  | [part] => some (some part)
  | _ => none

/-- The condition and the body among the parts of a conditional statement.  A
part that stands alone is the condition if it is an expression. -/
def branches? : List Node → Option (Option Node × Option Node)
  | [] => some (none, none)
  | [part] =>
      if part.isExpression then some (some part, none)
      else some (none, some part)
  | [condition, body] => some (some condition, some body)
  | _ => none

/-- The node with these fields. -/
def node? (fields : Fields) : Option Node :=
  match fields.tag, fields.value, fields.children with
  | "Program", none, statements =>
      some (.compound .program statements fields.position)
  | "Block", none, statements =>
      some (.compound .block statements fields.position)
  | "Declaration", some type, .identifier text place :: rest =>
      (Ty.ofName? type).bind fun ty =>
        (part? rest).map fun initializer =>
          .declaration ty ⟨text, place⟩ initializer fields.position
  | "Assignment", some "=", .identifier text place :: rest =>
      (part? rest).map fun value =>
        .assignment ⟨text, place⟩ value fields.position
  | "IfStatement", none, parts =>
      (branches? parts).map fun (condition, body) =>
        .conditional .ifThen condition body fields.position
  | "WhileStatement", none, parts =>
      (branches? parts).map fun (condition, body) =>
        .conditional .whileLoop condition body fields.position
  | "ReturnStatement", none, parts =>
      (part? parts).map fun value => .result value fields.position
  | "BinaryExpression", some symbol, [left, right] =>
      (Operator.ofSymbol? symbol).map fun operator =>
        .binary operator left right fields.position
  | "Identifier", some text, [] => some (.identifier text fields.position)
  | "Literal", some text, [] => some (.literal text fields.position)
  | _, _, _ => none

theorem part?_toList (node : Option Node) :
    part? node.toList = some node := by
  cases node <;> rfl

end Fields

namespace Node

mutual

/-- The tree of a document in canonical form. -/
def read? : Json → Option Node
  | .obj members => (readMembers? members).bind Fields.node?
  | _ => none

def readMembers? : List (String × Json) → Option Fields
  | [] => some {}
  | ("type", .str tag) :: rest =>
      (readMembers? rest).map fun fields => { fields with tag := tag }
  | ("value", .str text) :: rest =>
      (readMembers? rest).map fun fields => { fields with value := some text }
  | ("children", .arr elements) :: rest =>
      (readAll? elements).bind fun children =>
        (readMembers? rest).map fun fields =>
          { fields with children := children }
  | ("position", .obj [("column", .num column), ("line", .num line)]) :: rest =>
      (readMembers? rest).map fun fields =>
        { fields with position := some ⟨line, column⟩ }
  | _ => none

def readAll? : List Json → Option (List Node)
  | [] => some []
  | element :: rest =>
      (read? element).bind fun node =>
        (readAll? rest).map fun nodes => node :: nodes

end

/-- The tree of a document, whatever the order of the members. -/
def ofJson? (document : Json) : Option Node :=
  read? document.canonical

def ofJsonAll? (documents : List Json) : Option (List Node) :=
  readAll? (Json.canonicalAll documents)

@[simp]
theorem ofJsonAll?_nil : ofJsonAll? [] = some [] := rfl

@[simp]
theorem ofJsonAll?_cons (document : Json) (rest : List Json) :
    ofJsonAll? (document :: rest) =
      (ofJson? document).bind fun node =>
        (ofJsonAll? rest).map fun nodes => node :: nodes := rfl

theorem ofJsonAll?_append {first second : List Json} {nodes others : List Node}
    (hfirst : ofJsonAll? first = some nodes)
    (hsecond : ofJsonAll? second = some others) :
    ofJsonAll? (first ++ second) = some (nodes ++ others) := by
  induction first generalizing nodes with
  | nil =>
      cases hfirst
      exact hsecond
  | cons document rest ih =>
      rw [ofJsonAll?_cons, Option.bind_eq_some_iff] at hfirst
      obtain ⟨node, hnode, hrest⟩ := hfirst
      obtain ⟨tail, htail, rfl⟩ := Option.map_eq_some_iff.mp hrest
      simp [hnode, ih htail]

/-- In the canonical form of a document the children come first, then the place,
the tag and the value. -/
theorem canonical_nodeDocument (tag : String) (value : Option String)
    (documents : List Json) (position : Option Position) :
    (nodeDocument tag value documents position).canonical =
      .obj (Json.optional "children"
          (if documents.isEmpty then none
            else some (.arr (Json.canonicalAll documents))) ++
        (Json.optional "position" (position.map fun place =>
            .obj [("column", .num place.column), ("line", .num place.line)]) ++
          ("type", .str tag) :: Json.optional "value" (value.map .str))) := by
  cases value <;> cases documents <;> cases position <;>
    simp [nodeDocument, Json.optional, Json.canonical, Json.canonicalMembers,
      Json.insertMember, Position.toJson]

/-- A document gives back the fields that it was made of. -/
theorem ofJson?_nodeDocument (tag : String) (value : Option String)
    {documents : List Json} {nodes : List Node}
    (hchildren : ofJsonAll? documents = some nodes)
    (position : Option Position) :
    ofJson? (nodeDocument tag value documents position) =
      Fields.node? ⟨tag, value, nodes, position⟩ := by
  rw [ofJson?, canonical_nodeDocument]
  cases documents with
  | nil =>
      cases hchildren
      cases position <;> cases value <;>
        simp [Json.optional, read?, readMembers?]
  | cons document rest =>
      rw [ofJsonAll?] at hchildren
      cases position <;> cases value <;>
        simp [Json.optional, read?, readMembers?, hchildren]

theorem ofJson?_name (name : Name) :
    ofJson? name.toJson = some (.identifier name.text name.position) := by
  rw [Name.toJson, ofJson?_nodeDocument _ _ ofJsonAll?_nil]
  rfl

/-- An expression is read back. -/
theorem ofJson?_expression (node : Node) (hnode : node.isExpression = true) :
    ofJson? node.toJson = some node := by
  induction node, hnode using expression_induction with
  | identifier text position =>
      rw [toJson, ofJson?_nodeDocument _ _ ofJsonAll?_nil]
      rfl
  | literal text position =>
      rw [toJson, ofJson?_nodeDocument _ _ ofJsonAll?_nil]
      rfl
  | binary operator left right position hleft hright hnode ihleft ihright =>
      have hchildren : ofJsonAll? [left.toJson, right.toJson] =
          some [left, right] := by
        simp [ihleft, ihright]
      rw [toJson, ofJson?_nodeDocument _ _ hchildren]
      simp [Fields.node?, tag, Operator.ofSymbol?_symbol]

theorem ofJsonAll?_some {node : Node}
    (hnode : ofJson? node.toJson = some node) :
    ofJsonAll? (toJsonOption (some node)) = some [node] := by
  simp [toJsonOption, hnode]

theorem ofJsonAll?_expression {node : Option Node}
    (hnode : node.all isExpression = true) :
    ofJsonAll? (toJsonOption node) = some node.toList := by
  cases node with
  | none => rfl
  | some node => exact ofJsonAll?_some (ofJson?_expression node hnode)

/-- A name and an expression after it are read back. -/
theorem ofJsonAll?_named (name : Name) {value : Option Node}
    (hvalue : value.all isExpression = true) :
    ofJsonAll? (name.toJson :: toJsonOption value) =
      some (.identifier name.text name.position :: value.toList) := by
  rw [ofJsonAll?_cons, ofJson?_name, ofJsonAll?_expression hvalue]
  rfl

/-- No body is an expression. -/
theorem isExpression_of_isBody {node : Node}
    (hbody : isBody (some node) = true) : node.isExpression = false := by
  cases node with
  | identifier text position => simp [isBody, isStatement] at hbody
  | literal text position => simp [isBody, isStatement] at hbody
  | binary operator left right position => simp [isBody, isStatement] at hbody
  | _ => rfl

/-- So the parts of a conditional statement are told apart. -/
theorem branches?_parts {condition body : Option Node}
    (hcondition : condition.all isExpression = true)
    (hbody : isBody body = true) :
    Fields.branches? (condition.toList ++ body.toList) =
      some (condition, body) := by
  cases condition with
  | none =>
      cases body with
      | none => rfl
      | some body => simp [Fields.branches?, isExpression_of_isBody hbody]
  | some condition =>
      rw [Option.all_some] at hcondition
      cases body with
      | none => simp [Fields.branches?, hcondition]
      | some body => rfl

mutual

/-- A statement is read back. -/
theorem ofJson?_statement (node : Node) (hnode : node.isStatement = true) :
    ofJson? node.toJson = some node := by
  cases node with
  | declaration ty name initializer position =>
      rw [toJson, ofJson?_nodeDocument _ _ (ofJsonAll?_named name hnode)]
      simp [Fields.node?, tag, Ty.ofName?_name, Fields.part?_toList]
  | assignment target value position =>
      rw [toJson, ofJson?_nodeDocument _ _ (ofJsonAll?_named target hnode)]
      simp [Fields.node?, tag, Fields.part?_toList]
  | conditional form condition body position =>
      simp only [isStatement, Bool.and_eq_true] at hnode
      have hparts := ofJsonAll?_append (ofJsonAll?_expression hnode.1)
        (ofJsonAll?_body body hnode.2)
      rw [toJson, ofJson?_nodeDocument _ _ hparts]
      cases form <;>
        simp [Fields.node?, tag, branches?_parts hnode.1 hnode.2]
  | result value position =>
      rw [toJson, ofJson?_nodeDocument _ _ (ofJsonAll?_expression hnode)]
      simp [Fields.node?, tag, Fields.part?_toList]
  | compound form statements position => simp [isStatement] at hnode
  | binary operator left right position => simp [isStatement] at hnode
  | identifier text position => simp [isStatement] at hnode
  | literal text position => simp [isStatement] at hnode

theorem ofJsonAll?_body (body : Option Node) (hbody : isBody body = true) :
    ofJsonAll? (toJsonOption body) = some body.toList := by
  cases body with
  | none => rfl
  | some node =>
      apply ofJsonAll?_some
      cases node with
      | compound form statements position =>
          cases form with
          | program => simp [isBody, isStatement] at hbody
          | block =>
              rw [toJson, ofJson?_nodeDocument _ _
                (ofJsonAll?_statements statements hbody)]
              simp [Fields.node?, tag]
      | _ => exact ofJson?_statement _ hbody

theorem ofJsonAll?_statements (statements : List Node)
    (hstatements : isStatementAll statements = true) :
    ofJsonAll? (toJsonAll statements) = some statements := by
  cases statements with
  | nil => rfl
  | cons node rest =>
      simp only [isStatementAll, Bool.and_eq_true] at hstatements
      rw [toJsonAll, ofJsonAll?_cons, ofJson?_statement node hstatements.1,
        ofJsonAll?_statements rest hstatements.2]
      rfl

end

/-- A parsed tree is read back. -/
theorem ofJson?_parse (tokens : List Token) :
    ofJson? (parse tokens).toJson = some (parse tokens) := by
  obtain ⟨statements, htree, hstatements⟩ := parse_isStatementAll tokens
  rw [htree, toJson, ofJson?_nodeDocument _ _
    (ofJsonAll?_statements statements hstatements)]
  simp [Fields.node?, tag]

end Node

/-- Documents lose nothing of parsed trees.  Every parsed tree is read back from
its document, the reader does not look at the order of members, and parsed trees
whose documents are the same value, up to the order of members at any depth, are
the same. -/
theorem parse_document_lossless :
    (∀ tokens, Node.ofJson? (parse tokens).toJson = some (parse tokens)) ∧
    (∀ members others : List (String × Json), members.Perm others →
      (members.map Prod.fst).Nodup →
        Node.ofJson? (.obj members) = Node.ofJson? (.obj others)) ∧
    ∀ first second : List Token,
      (parse first).toJson.canonical = (parse second).toJson.canonical →
        parse first = parse second := by
  refine ⟨Node.ofJson?_parse, ?_, ?_⟩
  · intro members others hperm hkeys
    rw [Node.ofJson?, Node.ofJson?, Json.canonical, Json.canonical,
      Json.canonicalMembers_perm hperm hkeys]
  · intro first second hsame
    -- The reader sees the canonical form alone.
    have hread : Node.ofJson? (parse first).toJson =
        Node.ofJson? (parse second).toJson := congrArg Node.read? hsame
    rw [Node.ofJson?_parse, Node.ofJson?_parse] at hread
    exact Option.some.inj hread

/-- A condition without a body is read as one, with or without a stray token
after it. -/
theorem parse_document_lossless_of_condition :
    let condition : List Token :=
      [⟨.keyword, "if", ⟨1, 1⟩⟩, ⟨.delimiter, "(", ⟨1, 4⟩⟩,
        ⟨.identifier, "x", ⟨1, 5⟩⟩, ⟨.delimiter, ")", ⟨1, 6⟩⟩]
    let stray : List Token := condition ++ [⟨.delimiter, ";", ⟨1, 7⟩⟩]
    (parse condition).toJson.canonical = (parse stray).toJson.canonical ∧
      parse condition = parse stray :=
  ⟨rfl, parse_document_lossless.2.2 _ _ rfl⟩

end ThreeAddress
