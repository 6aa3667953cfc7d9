import PromptPipeline.Proofs.Script.JavaScript.Token
import PromptPipeline.Script.JavaScript.Scope

/-!
# Expressions of arithmetic

An expression is a tree of variables and literals under operators and parentheses, and its text has
one space between two symbols (`spell_symbols_append`). In the row of its symbols no operand stands
right behind an operand, and a slash stands nowhere else (`Expression.connected_symbols`).
-/

namespace PromptPipeline.JavaScript

/-- A name in ASCII that may be the name of a variable. -/
structure Variable where
  name : String
  isAscii : isAsciiName name.toList = true
  notMem_keywords : name ∉ keywords
  notMem_globals : name ∉ globals

/-- A whole number in digits. -/
structure Literal where
  text : String
  ne_nil : text.toList ≠ []
  all_isDigit : text.toList.all Char.isDigit = true

/-- The operators of arithmetic. -/
inductive Operator where
  | plus
  | minus
  | times
  | divide
  deriving DecidableEq

def Operator.text : Operator → String
  | .plus => "+"
  | .minus => "-"
  | .times => "*"
  | .divide => "/"

/-- An arithmetic expression, with its parentheses. -/
inductive Expression where
  | var (v : Variable)
  | literal (l : Literal)
  | signed (negative : Bool) (operand : Expression)
  | operation (op : Operator) (left right : Expression)
  | parenthesized (inner : Expression)

/-- What an expression is printed with. -/
inductive Symbol where
  | var (v : Variable)
  | literal (l : Literal)
  | operator (op : Operator)
  | opening
  | closing

namespace Expression

def sign (negative : Bool) : Operator :=
  if negative then .minus else .plus

/-- The expression with one space between two symbols. -/
def text : Expression → String
  | .var v => v.name
  | .literal l => l.text
  | .signed negative operand => (sign negative).text ++ " " ++ operand.text
  | .operation op left right => left.text ++ " " ++ op.text ++ " " ++ right.text
  | .parenthesized inner => "( " ++ inner.text ++ " )"

/-- The script that returns the value of the expression. -/
def script (e : Expression) : String :=
  "return " ++ e.text ++ ";"

/-- The names of the variables, from left to right. -/
def names : Expression → List String
  | .var v => [v.name]
  | .literal _ => []
  | .signed _ operand => operand.names
  | .operation _ left right => left.names ++ right.names
  | .parenthesized inner => inner.names

/-- The symbols that the expression is printed with. -/
def symbols : Expression → List Symbol
  | .var v => [.var v]
  | .literal l => [.literal l]
  | .signed negative operand => .operator (sign negative) :: operand.symbols
  | .operation op left right => left.symbols ++ .operator op :: right.symbols
  | .parenthesized inner => .opening :: (inner.symbols ++ [.closing])

/-- A slash stands right behind a literal. -/
def DividesLiteral (e : Expression) : Prop :=
  ∃ l, [.literal l, .operator .divide] <:+: e.symbols

end Expression

namespace Symbol

def text : Symbol → String
  | .var v => v.name
  | .literal l => l.text
  | .operator op => op.text
  | .opening => "("
  | .closing => ")"

def name? : Symbol → Option String
  | .var v => some v.name
  | _ => none

/-- Whether the symbol is the sign of a division. -/
def divides : Symbol → Bool
  | .operator .divide => true
  | _ => false

def startsOperand : Symbol → Bool
  | .var _ | .literal _ | .opening => true
  | .operator _ | .closing => false

def endsOperand : Symbol → Bool
  | .var _ | .literal _ | .closing => true
  | .operator _ | .opening => false

theorem eq_of_divides {s : Symbol} (h : s.divides = true) : s = .operator .divide := by
  unfold divides at h
  split at h
  next => rfl
  next => cases h

end Symbol

/-! ## Printing -/

/-- The symbols with a space before each, and a semicolon. -/
def spell : List Symbol → List Char
  | [] => [';']
  | s :: rest => ' ' :: (s.text.toList ++ spell rest)

theorem spell_symbols_append (e : Expression) (rest : List Symbol) :
    spell (e.symbols ++ rest) = ' ' :: (e.text.toList ++ spell rest) := by
  induction e generalizing rest with
  | var v => rfl
  | literal l => rfl
  | signed negative operand ih =>
    simp [Expression.symbols, Expression.text, spell, ih, Symbol.text]
  | operation op left right ihl ihr =>
    simp [Expression.symbols, Expression.text, spell, ihl, ihr, Symbol.text]
  | parenthesized inner ih =>
    simp [Expression.symbols, Expression.text, spell, ih, Symbol.text]

theorem toList_script (e : Expression) :
    e.script.toList = "return".toList ++ spell e.symbols := by
  have hspell := spell_symbols_append e []
  rw [List.append_nil] at hspell
  rw [hspell]
  simp [Expression.script, spell]

theorem filterMap_name?_symbols (e : Expression) :
    e.symbols.filterMap Symbol.name? = e.names := by
  induction e with
  | var v => rfl
  | literal l => rfl
  | signed negative operand ih => exact ih
  | operation op left right ihl ihr =>
    rw [Expression.symbols, List.filterMap_append, ihl, Expression.names, ← ihr]
    rfl
  | parenthesized inner ih =>
    show (inner.symbols ++ [Symbol.closing]).filterMap Symbol.name? = inner.names
    rw [List.filterMap_append, ih]
    exact List.append_nil _

/-- What is printed goes on with a space or a semicolon. -/
theorem head?_spell_imp {syms : List Symbol} {p : Char → Prop} (hspace : p ' ')
    (hsemicolon : p ';') : ∀ c ∈ (spell syms).head?, p c := by
  intro c hc
  cases syms with
  | nil => rwa [← Option.some.inj hc]
  | cons s rest => rwa [← Option.some.inj hc]

/-! ## Which symbols stand beside each other -/

namespace Symbol

/-- What may stand behind a symbol: no operand behind an operand, and a slash only there. -/
def Follows (s next : Symbol) : Prop :=
  (s.endsOperand = true → next.startsOperand = false) ∧
    (next.divides = true → s.endsOperand = true)

/-- The symbols of an operand: they fit together and do not start with a slash, and there is an
operand at their end. -/
structure Connected (syms : List Symbol) : Prop where
  chain : syms.IsChain Follows
  starts : ∃ s ∈ syms.head?, s.divides = false
  ends : ∃ s ∈ syms.getLast?, s.endsOperand = true

variable {syms left right : List Symbol} {s : Symbol}

theorem Connected.singleton (hstart : s.divides = false) (hend : s.endsOperand = true) :
    Connected [s] :=
  ⟨.singleton s, ⟨s, rfl, hstart⟩, ⟨s, rfl, hend⟩⟩

theorem Connected.divides_head (h : Connected syms) : ∀ s ∈ syms.head?, s.divides = false := by
  intro s hs
  obtain ⟨first, hfirst, hstart⟩ := h.starts
  obtain rfl := Option.mem_unique hfirst hs
  exact hstart

theorem Connected.isChain_cons (h : Connected syms) (hs : s.endsOperand = false) :
    (s :: syms).IsChain Follows := by
  refine h.chain.cons fun next hnext => ⟨fun hends => ?_, fun hdivides => ?_⟩
  · rw [hs] at hends
    cases hends
  · rw [h.divides_head next hnext] at hdivides
    cases hdivides

theorem getLast?_cons_of_mem (h : s ∈ syms.getLast?) (first : Symbol) :
    s ∈ (first :: syms).getLast? := by
  rw [List.getLast?_cons, Option.mem_def.mp h]
  rfl

/-- What ends no operand may stand before an operand. -/
theorem Connected.cons (h : Connected syms) (hstart : s.divides = false)
    (hs : s.endsOperand = false) : Connected (s :: syms) := by
  obtain ⟨last, hlast, hends⟩ := h.ends
  exact ⟨h.isChain_cons hs, ⟨s, rfl, hstart⟩, ⟨last, getLast?_cons_of_mem hlast s, hends⟩⟩

/-- What starts no operand may stand behind an operand. -/
theorem Connected.append (h : Connected left) (hchain : right.IsChain Follows)
    (hstarts : ∀ s ∈ right.head?, s.startsOperand = false)
    (hends : ∃ s ∈ right.getLast?, s.endsOperand = true) : Connected (left ++ right) := by
  obtain ⟨last, hlast, hend⟩ := h.ends
  refine ⟨h.chain.append hchain fun s hs next hnext => ?_, ?_, ?_⟩
  · obtain rfl := Option.mem_unique hlast hs
    exact ⟨fun _ => hstarts next hnext, fun _ => hend⟩
  · obtain ⟨first, hfirst, hstart⟩ := h.starts
    exact ⟨first, List.mem_head?_append_of_mem_head? hfirst, hstart⟩
  · obtain ⟨last', hlast', hend'⟩ := hends
    refine ⟨last', ?_, hend'⟩
    rw [List.getLast?_append, Option.mem_def.mp hlast']
    rfl

end Symbol

theorem Expression.connected_symbols (e : Expression) : Symbol.Connected e.symbols := by
  induction e with
  | var v => exact .singleton rfl rfl
  | literal l => exact .singleton rfl rfl
  | signed negative operand ih =>
    refine ih.cons ?_ rfl
    cases negative <;> rfl
  | operation op left right ihl ihr =>
    obtain ⟨last, hlast, hends⟩ := ihr.ends
    refine ihl.append (ihr.isChain_cons rfl) (fun s hs => ?_)
      ⟨last, Symbol.getLast?_cons_of_mem hlast _, hends⟩
    rw [← Option.some.inj hs]
    rfl
  | parenthesized inner ih =>
    have hclosed : Symbol.Connected (inner.symbols ++ [.closing]) := by
      refine ih.append (.singleton _) (fun s hs => ?_) ⟨.closing, rfl, rfl⟩
      rw [← Option.some.inj hs]
      rfl
    exact hclosed.cons rfl rfl

end PromptPipeline.JavaScript
