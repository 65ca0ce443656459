import AgentSpeak.Formula.Parser
import AgentSpeak.Log
import AgentSpeak.Program.Basic

/-!
Reading programs clause by clause.

A clause with a problem is skipped up to the full stop that ends it; inside a plan body a full stop
with a name directly behind it begins an action and ends nothing. Strict reading takes a text only
if no clause has a problem.
-/

namespace AgentSpeak

open Source (Parser Kind Token Cursor Problem ParseError)
open Source.Parser

namespace Trigger

def parseSubject : Parser Subject := do
  if ← accept .bang then return .achievement
  else if ← accept .question then return .test
  else return .belief

def parseChange : Parser Change := do
  if ← accept .plus then return .addition
  else if ← accept .minus then return .deletion
  else fail .eventSign

/-- A trigger: a sign, a mark and a literal. -/
def parse : Parser Trigger := do
  let change ← parseChange
  let subject ← parseSubject
  return ⟨change, subject, ← Term.parseLiteral⟩

def read (text : String) : Except ParseError Trigger :=
  parse.read text

end Trigger

namespace Statement

/-- An action call written as a literal. -/
def ofLiteral (kind : ActionKind) (literal : Term) : Statement :=
  let (name, arguments) := literal.literalParts
  .action kind name arguments

/-- A built-in action: a full stop with a name right behind it. -/
def parseBuiltin : Parser Statement := do
  let dot ← expect .dot (.token .dot)
  let name ← peek
  if name.kind ≠ .functor ∨ name.position.offset ≠ dot.stop then
    throw ⟨.expected .actionName, name, nofun⟩
  else return ofLiteral .builtin (← Term.parseLiteral)

def parseCondition : Parser Formula := do
  let _ ← expect .openParen .parenBeforeCondition
  let condition ← Formula.parse
  let _ ← expect .closeParen .parenAfterCondition
  return condition

def parseBlock (body : Parser (List Statement)) : Parser (List Statement) := do
  let _ ← expect .openBrace .blockStart
  if ← accept .closeBrace then return []
  else
    let statements ← body
    let _ ← expect .closeBrace .blockEnd
    return statements

/-- A branch. The other side can be a branch of its own. -/
def parseBranch (body : Parser (List Statement)) : Nat → Parser Statement
  | 0 => fail (.token .ifWord)
  | fuel + 1 => do
      let _ ← expect .ifWord (.token .ifWord)
      let condition ← parseCondition
      let positive ← parseBlock body
      let negative ←
        if ← accept .elseWord then
          if ← check .ifWord then do pure [← parseBranch body fuel]
          else parseBlock body
        else pure []
      return .branch condition positive negative

def parseLoop (body : Parser (List Statement)) : Parser Statement := do
  let condition ← parseCondition
  return .loop condition (← parseBlock body)

/-- A statement that begins with a term at a token: a constraint between terms, or a call of an
environment action. -/
def parseBehind (first : Token) (left : Term) : Parser Statement := do
  match Formula.relation? (← peek).kind with
  | some relation =>
      let _ ← advance
      return .constraint relation left (← Term.parse)
  | none =>
      if left.isPlainLiteral then return ofLiteral .user left
      else throw ⟨.notStatement left, first, nofun⟩

def parseCall : Parser Statement := do
  let first ← peek
  parseBehind first (← Term.parse)

def endsStatement (kind : Kind) : Bool :=
  kind == .semicolon || kind == .dot || kind == .closeBrace

/-- A statement. The word `true` alone does nothing and is none. -/
def parseWith (body : Parser (List Statement)) : Parser (Option Statement) := do
  match (← peek).kind with
  | .bangBang =>
      let _ ← advance
      return some (.achieveLater (← Term.parseLiteral))
  | .bang =>
      let _ ← advance
      return some (.achieve (← Term.parseLiteral))
  | .question =>
      let _ ← advance
      return some (.test (← Term.parseLiteral))
  | .plus =>
      let _ ← advance
      return some (.add (← Term.parseLiteral))
  | .minusPlus =>
      let _ ← advance
      return some (.replace (← Term.parseLiteral))
  | .minus =>
      let _ ← advance
      return some (.remove (← Term.parseLiteral))
  | .dot => return some (← parseBuiltin)
  | .ifWord => return some (← parseBranch body (← budget))
  | .whileWord =>
      let _ ← advance
      return some (← parseLoop body)
  | .trueWord =>
      if endsStatement (← peekSecond).kind then
        let _ ← advance
        return none
      else return some (← parseCall)
  | _ => return some (← parseCall)

def endsWithBrace : Option Statement → Bool
  | some (.branch ..) => true
  | some (.loop ..) => true
  | _ => false

/-- Whether another statement follows. Behind a closing brace the semicolon may be missing, and one
may stand before the brace that closes a block. -/
def parseMore (first : Option Statement) : Parser Bool := do
  if ← accept .semicolon then return !(← check .closeBrace)
  else if endsWithBrace first then return !((← check .dot) || (← check .closeBrace))
  else return false

/-- Statements with semicolons between them. -/
def parseSequence (statement : Parser (Option Statement)) : Nat → Parser (List Statement)
  | 0 => pure []
  | fuel + 1 => do
      let first ← statement
      if ← parseMore first then return first.toList ++ (← parseSequence statement fuel)
      else return first.toList

/-- A plan body whose blocks nest at most `depth` deep. -/
def parseBodyWithin : Nat → Parser (List Statement)
  | 0 => fail .term
  | depth + 1 => do parseSequence (parseWith (parseBodyWithin depth)) (← budget)

def parseBody : Parser (List Statement) := do
  parseBodyWithin (← budget)

end Statement

namespace Plan

def parseLabel : Parser (Option Term) := do
  if ← accept .label then return some (← Term.parseLiteral) else return none

def parseContext : Parser Formula := do
  if ← accept .colon then Formula.parse else return .truth

def parseBody : Parser (List Statement) := do
  if ← accept .planArrow then Statement.parseBody else return []

def parse : Parser Plan := do
  let label ← parseLabel
  let trigger ← Trigger.parse
  let context ← parseContext
  let body ← parseBody
  let _ ← expect .dot .dotAfterPlan
  return { trigger, context, body, label }

end Plan

inductive Clause where
  | belief (fact : Term)
  | rule (rule : Rule)
  | goal (goal : Term)
  | plan (plan : Plan)

namespace Clause

def parseGoal : Parser Clause := do
  let goal ← Term.parseLiteral
  let _ ← expect .dot .dotAfterGoal
  return .goal goal

/-- A rule or a belief. A belief has no variables. -/
def parseRuleOrBelief : Parser Clause := do
  let first ← peek
  let head ← Term.parseLiteral
  if ← accept .ruleArrow then
    let body ← Formula.parse
    let _ ← expect .dot .dotAfterRule
    return .rule ⟨head, body⟩
  else if !head.isGround then throw ⟨.openFact head, first, nofun⟩
  else
    let _ ← expect .dot .dotAfterFact
    return .belief head

def parse : Parser Clause := do
  match (← peek).kind with
  | .bang =>
      let _ ← advance
      parseGoal
  | .label | .plus | .minus => return .plan (← Plan.parse)
  | _ => parseRuleOrBelief

/-- Whether a token begins an action right behind a full stop. -/
def beginsAction (dot : Token) : List Token → Bool
  | next :: _ => next.kind == .functor && next.position.offset == dot.stop
  | [] => false

/-- The tokens behind the full stop that ends a faulty clause, at `depth` open brackets. -/
def skip : Bool → Nat → List Token → List Token
  | _, _, [] => []
  | inBody, depth, token :: rest =>
      match token.kind with
      | .planArrow => skip true depth rest
      | .openParen | .openBracket | .openBrace => skip inBody (depth + 1) rest
      | .closeParen | .closeBracket | .closeBrace => skip inBody (depth - 1) rest
      | .dot =>
          if depth == 0 && !(inBody && beginsAction token rest) then rest
          else skip inBody depth rest
      | _ => skip inBody depth rest

/-- The cursor behind a clause that began at `first` and had a problem at `failed`. -/
def recover (first failed : Cursor) : Cursor :=
  let consumed := first.upcoming.take (first.upcoming.length - failed.upcoming.length)
  let inBody := consumed.any fun token => token.kind == .planArrow
  { failed with upcoming := skip inBody 0 failed.upcoming }

/-- The clauses of a text in order and the problems of those that are faulty, and the problem that
ended the reading at once if there was one. Each clause takes at least one token, so `fuel` is the
number of tokens. -/
def parseAll : Nat → Cursor → List (Except Problem Clause) × Option Problem
  | 0, _ => ([], none)
  | fuel + 1, cursor =>
      if cursor.upcoming.isEmpty then ([], none)
      else match parse cursor with
        | (.ok clause, after) => (parseAll fuel after).map (.ok clause :: ·) id
        | (.error problem, failed) =>
            if problem.isFatal then ([], some problem)
            else (parseAll fuel (recover cursor failed)).map (.error problem :: ·) id

/-- The clauses of a text in order, if none of them has a problem. -/
def parseStrictly : Nat → Cursor → Except Problem (List Clause)
  | 0, _ => .ok []
  | fuel + 1, cursor =>
      if cursor.upcoming.isEmpty then .ok []
      else match parse cursor with
        | (.ok clause, after) => return clause :: (← parseStrictly fuel after)
        | (.error problem, _) => .error problem

/-- What a clause that is left out had for a problem. -/
def fault? {ε : Type} : Except ε Clause → Option ε
  | .ok _ => none
  | .error fault => some fault

def belief? : Clause → Option Term
  | belief fact => some fact
  | _ => none

def rule? : Clause → Option Rule
  | rule clause => some clause
  | _ => none

def goal? : Clause → Option Term
  | goal clause => some clause
  | _ => none

def plan? : Clause → Option Plan
  | plan clause => some clause
  | _ => none

end Clause

namespace Program

def ofClauses (clauses : List Clause) : Program :=
  { beliefs := clauses.filterMap Clause.belief?
    rules := clauses.filterMap Clause.rule?
    goals := clauses.filterMap Clause.goal?
    plans := clauses.filterMap Clause.plan? }

/-- A program read from a text, and the errors of the clauses that were left out. -/
structure Reading where
  program : Program
  errors : List ParseError

namespace Reading

/-- What is read where each clause has been read or has an error. -/
def ofOutcomes (outcomes : List (Except ParseError Clause)) : Reading where
  program := ofClauses (outcomes.filterMap Except.toOption)
  errors := outcomes.filterMap Clause.fault?

def log (reading : Reading) : List LogLine :=
  reading.errors.map (fun error => ⟨.warning, "Skipping clause: " ++ error.message⟩) ++
    [⟨.debug, s!"Parsed {reading.program.beliefs.length} beliefs" ++
      s!", {reading.program.rules.length} rules, {reading.program.goals.length} goals" ++
      s!", {reading.program.plans.length} plans ({reading.errors.length} errors)"⟩]

end Reading

/-- The clauses of a text with an error for each one that is faulty, and the error that ended the
reading at once if there was one. -/
def readClauses (text : String) : List (Except ParseError Clause) × Option ParseError :=
  let cursor := Source.Parser.start text
  let report := ParseError.ofProblem (Text.lines text)
  (Clause.parseAll cursor.upcoming.length cursor).map (List.map (Except.mapError report))
    (Option.map report)

/-- The program of the clauses that are well formed, unless the reading ended at once. -/
def readLenient (text : String) : Except ParseError Reading :=
  match readClauses text with
  | (outcomes, none) => .ok (.ofOutcomes outcomes)
  | (_, some error) => .error error

/-- The program of a text without faulty clauses. The first problem ends the reading. -/
def readStrict (text : String) : Except ParseError Reading :=
  let cursor := Source.Parser.start text
  match Clause.parseStrictly cursor.upcoming.length cursor with
  | .ok clauses => .ok { program := ofClauses clauses, errors := [] }
  | .error problem => .error (.ofProblem (Text.lines text) problem)

/-- Reads a program, with or without tolerance for faulty clauses. -/
def read (text : String) (strict : Bool) : Except ParseError Reading :=
  if strict then readStrict text else readLenient text

end Program

end AgentSpeak
