import ThreeAddress.Analysis.Walk
import ThreeAddress.Proofs.Visit

/-!
The walk through a tree and the visits of its nodes, side by side.  Each move is
a step of the walk, a visit, or both at once; scopes are entered and left on the
way.  What analysis does along a walk is told by what it does on each move.
-/

namespace ThreeAddress

/-- Where a walk stands: the scopes around it, from the inside out, and the
number of the next one to be entered. -/
structure Site where
  scopes : List Nat
  fresh : Nat
deriving DecidableEq, Repr

/-- Whether there is nothing to do on the visit of a node. -/
def Node.isPassed : Node → Bool
  | compound .. => true
  | result .. => true
  | binary .. => true
  | literal .. => true
  | _ => false

theorem Node.use?_of_isPassed {node : Node} (hpassed : node.isPassed = true) :
    node.use? = none := by
  cases node with
  | assignment target value position => simp [isPassed] at hpassed
  | identifier text position => simp [isPassed] at hpassed
  | _ => rfl

theorem Visit.symbol?_of_isPassed {node : Node}
    (hpassed : node.isPassed = true) (scopes : List Nat) :
    Visit.symbol? ⟨node, scopes⟩ = none := by
  cases node with
  | declaration ty name initializer position =>
      simp [Node.isPassed] at hpassed
  | _ => rfl

inductive Move : Site → Option Step → Option Visit → Site → Prop where
  | pass (site : Site) (node : Node) (hpassed : node.isPassed = true) :
      Move site none (some ⟨node, site.scopes⟩) site
  | declare (site : Site) (ty : Ty) (name : Name) (initializer : Option Node)
      (position : Option Position) :
      Move site
        (some (.declare name.text ty
          (Node.declaration ty name initializer position).line
          initializer.isSome (initializer.bind Node.literalText?)))
        (some ⟨.declaration ty name initializer position, site.scopes⟩) site
  | assign (site : Site) (target : Name) (value : Option Node)
      (position : Option Position) :
      Move site
        (some (.assign target.text
          (Node.assignment target value position).line
          (value.bind Node.literalText?)))
        (some ⟨.assignment target value position, site.scopes⟩) site
  | use (site : Site) (text : String) (position : Option Position) :
      Move site (some (.use text (Node.identifier text position).line))
        (some ⟨.identifier text position, site.scopes⟩) site
  | apply (site : Site) (operator : Operator) (left right : Node)
      (position : Option Position) :
      Move site
        (some (.apply operator left.operand right.operand
          (Node.binary operator left right position).line))
        none site
  | enter (scopes : List Nat) (fresh : Nat) (form : Conditional)
      (condition body : Option Node) (position : Option Position) :
      Move ⟨scopes, fresh⟩ (some (.enter form))
        (some ⟨.conditional form condition body position, scopes⟩)
        ⟨fresh :: scopes, fresh + 1⟩
  | leave (inner scope : Nat) (scopes : List Nat) (fresh : Nat) :
      Move ⟨inner :: scope :: scopes, fresh⟩ (some .leave) none
        ⟨scope :: scopes, fresh⟩

/-- Moves one after another. -/
inductive Route : Site → List Step → List Visit → Site → Prop where
  | refl (site : Site) : Route site [] [] site
  | cons {first second last : Site} {step : Option Step}
      {visit : Option Visit} {steps : List Step} {visits : List Visit}
      (hmove : Move first step visit second)
      (hroute : Route second steps visits last) :
      Route first (step.toList ++ steps) (visit.toList ++ visits) last

namespace Route

theorem single {first last : Site} {step : Option Step}
    {visit : Option Visit} (hmove : Move first step visit last) :
    Route first step.toList visit.toList last := by
  simpa using cons hmove (refl last)

theorem append {first middle last : Site} {steps more : List Step}
    {visits others : List Visit} (hfirst : Route first steps visits middle)
    (hsecond : Route middle more others last) :
    Route first (steps ++ more) (visits ++ others) last := by
  induction hfirst with
  | refl site => exact hsecond
  | cons hmove hroute ih =>
      rw [List.append_assoc, List.append_assoc]
      exact cons hmove (ih hsecond)

end Route

namespace Node

@[simp]
theorem countConditionals_nil : countConditionals [] = 0 := rfl

@[simp]
theorem countConditionals_cons (node : Node) (rest : List Node) :
    countConditionals (node :: rest) =
      countConditionals rest + if node.isConditional then 1 else 0 :=
  List.countP_cons

@[simp]
theorem countConditionals_append (first second : List Node) :
    countConditionals (first ++ second) =
      countConditionals first + countConditionals second :=
  List.countP_append

mutual

/-- The walk through a tree goes along its visits, and ends in the scopes that
it started in. -/
theorem walk_route (node : Node) (scope : Nat) (scopes : List Nat)
    (fresh : Nat) :
    Route ⟨scope :: scopes, fresh⟩ node.walk
      (node.visits (scope :: scopes) fresh)
      ⟨scope :: scopes, fresh + countConditionals node.preorder⟩ := by
  cases node with
  | compound form statements position =>
      have hroute := Route.cons (.pass _ (compound form statements position) rfl)
        (walkAll_route statements scope scopes fresh)
      simpa [walk, visits, preorder, isConditional] using hroute
  | declaration ty name initializer position =>
      have hroute := Route.cons (.declare _ ty name initializer position)
        (walkOption_route initializer scope scopes fresh)
      simpa [walk, visits, preorder, isConditional] using hroute
  | assignment target value position =>
      have hroute := Route.cons (.assign _ target value position)
        (walkOption_route value scope scopes fresh)
      simpa [walk, visits, preorder, isConditional] using hroute
  | conditional form condition body position =>
      have hinner := (walkOption_route condition fresh (scope :: scopes)
        (fresh + 1)).append (walkOption_route body fresh (scope :: scopes) _)
      have hroute := Route.cons
        (.enter (scope :: scopes) fresh form condition body position)
        (hinner.append (.single (.leave fresh scope scopes _)))
      simpa [walk, visits, preorder, isConditional, Nat.add_assoc,
        Nat.add_comm, Nat.add_left_comm] using hroute
  | result value position =>
      have hroute := Route.cons (.pass _ (result value position) rfl)
        (walkOption_route value scope scopes fresh)
      simpa [walk, visits, preorder, isConditional] using hroute
  | binary operator left right position =>
      have hoperands := (walk_route left scope scopes fresh).append
        (walk_route right scope scopes _)
      have hroute := Route.cons
        (.pass _ (binary operator left right position) rfl)
        (hoperands.append (.single (.apply _ operator left right position)))
      simpa [walk, visits, preorder, isConditional, Nat.add_assoc] using hroute
  | identifier text position =>
      simpa [walk, visits, preorder, isConditional] using
        Route.single (.use ⟨scope :: scopes, fresh⟩ text position)
  | literal text position =>
      simpa [walk, visits, preorder, isConditional] using
        Route.single (.pass ⟨scope :: scopes, fresh⟩ (literal text position) rfl)

theorem walkAll_route (nodes : List Node) (scope : Nat) (scopes : List Nat)
    (fresh : Nat) :
    Route ⟨scope :: scopes, fresh⟩ (walkAll nodes)
      (visitsAll nodes (scope :: scopes) fresh)
      ⟨scope :: scopes, fresh + countConditionals (preorderAll nodes)⟩ := by
  cases nodes with
  | nil => exact .refl _
  | cons node rest =>
      have hroute := (walk_route node scope scopes fresh).append
        (walkAll_route rest scope scopes _)
      simpa [walkAll, visitsAll, preorderAll, Nat.add_assoc] using hroute

theorem walkOption_route (node : Option Node) (scope : Nat)
    (scopes : List Nat) (fresh : Nat) :
    Route ⟨scope :: scopes, fresh⟩ (walkOption node)
      (visitsOption node (scope :: scopes) fresh)
      ⟨scope :: scopes, fresh + countConditionals (preorderOption node)⟩ := by
  cases node with
  | none => exact .refl _
  | some node => exact walk_route node scope scopes fresh

end

end Node

end ThreeAddress
