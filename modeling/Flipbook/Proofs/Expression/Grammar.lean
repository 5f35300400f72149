import Flipbook.Expression.Parser

/-!
# The grammar of expressions

The grammar that expressions follow, apart from any way to read them. A phrase
`Derives` an expression from the tokens at the start of a list, and leaves the rest
of them; its depth counts the levels of nesting, one for each whole expression, each
pair of parentheses, each argument, each operand of a prefix and each exponent.

From loosest to tightest there are the operators of `Symbol.operator?`, all of them
binding to the left, then `^`, which binds to the right, then the prefixes, then
numbers, texts, names, calls and parentheses.

* `Derives`: the grammar.
* `Derives.head`: how a phrase starts.
* `Derives.exists_append`: what follows a phrase has no part in it.
* `Category.Ends`: what may follow a phrase that cannot be continued.
-/
namespace Flipbook.Expression

/-! ## Operators -/

/-- The operators that bind to the left, each with its level; the tightest are at
level zero. -/
def Symbol.operator? : Symbol → Option (Nat × BinaryOp)
  | .times => some (0, .multiply)
  | .divide => some (0, .divide)
  | .plus => some (1, .add)
  | .minus => some (1, .subtract)
  | .equal => some (2, .equal)
  | .notEqual => some (2, .notEqual)
  | .less => some (2, .less)
  | .greater => some (2, .greater)
  | .atMost => some (2, .atMost)
  | .atLeast => some (2, .atLeast)
  | .and => some (3, .and)
  | .or => some (4, .or)
  | _ => none

/-- The number of levels of operators that bind to the left. -/
def operatorLevels : Nat := 5

/-- The operators before an operand. -/
def Symbol.prefix? : Symbol → Option UnaryOp
  | .minus => some .negate
  | .not => some .not
  | _ => none

/-! ## Phrases -/

/-- The kinds of phrase. -/
inductive Category where
  /-- A whole program, what stands in parentheses, or an argument. -/
  | expression
  /-- Operands with operators below a level between them. -/
  | chain (level : Nat)
  /-- A base with or without an exponent. -/
  | power
  /-- An operand with or without prefixes. -/
  | unary
  /-- A number, a text, a name, a call or an expression in parentheses. -/
  | primary
  /-- A call up to one of its arguments. -/
  | openCall
deriving DecidableEq, Repr

/-- The phrases of the grammar: `Derives c depth ts rest e` says that the tokens of
`ts` before `rest` are a phrase of the category `c` that stands for `e`, with
nesting of the given depth. -/
inductive Derives : Category → Nat → List Lexeme → List Lexeme → Expr → Prop
  | expression {depth : Nat} {ts rest : List Lexeme} {e : Expr} :
      Derives (.chain operatorLevels) depth ts rest e →
      Derives .expression (depth + 1) ts rest e
  | operand {depth : Nat} {ts rest : List Lexeme} {e : Expr} :
      Derives .power depth ts rest e →
      Derives (.chain 0) depth ts rest e
  | looser {level depth : Nat} {ts rest : List Lexeme} {e : Expr} :
      Derives (.chain level) depth ts rest e →
      Derives (.chain (level + 1)) depth ts rest e
  | binary {level left right position : Nat} {s : Symbol} {op : BinaryOp}
      {ts us rest : List Lexeme} {a b : Expr} :
      s.operator? = some (level, op) →
      Derives (.chain (level + 1)) left ts (⟨.symbol s, position⟩ :: us) a →
      Derives (.chain level) right us rest b →
      Derives (.chain (level + 1)) (max left right) ts rest (.binary op a b)
  | base {depth : Nat} {ts rest : List Lexeme} {e : Expr} :
      Derives .unary depth ts rest e →
      Derives .power depth ts rest e
  | exponent {left right position : Nat} {ts us rest : List Lexeme} {a b : Expr} :
      Derives .unary left ts (⟨.symbol .power, position⟩ :: us) a →
      Derives .power right us rest b →
      Derives .power (max left (right + 1)) ts rest (.binary .power a b)
  | plain {depth : Nat} {ts rest : List Lexeme} {e : Expr} :
      Derives .primary depth ts rest e →
      Derives .unary depth ts rest e
  | signed {depth position : Nat} {s : Symbol} {op : UnaryOp} {ts rest : List Lexeme}
      {e : Expr} :
      s.prefix? = some op →
      Derives .unary depth ts rest e →
      Derives .unary (depth + 1) (⟨.symbol s, position⟩ :: ts) rest (.unary op e)
  | number {position : Nat} {value : Float} {rest : List Lexeme} :
      Derives .primary 0 (⟨.number value, position⟩ :: rest) rest (.number value)
  | text {position : Nat} {value : String} {rest : List Lexeme} :
      Derives .primary 0 (⟨.text value, position⟩ :: rest) rest (.text value)
  | parenthesized {depth opening closing : Nat} {ts rest : List Lexeme} {e : Expr} :
      Derives .expression depth ts (⟨.symbol .closeParen, closing⟩ :: rest) e →
      Derives .primary depth (⟨.symbol .openParen, opening⟩ :: ts) rest e
  | name {position : Nat} {name : String} {rest : List Lexeme} :
      Derives .primary 0 (⟨.name name, position⟩ :: rest) rest (named name)
  | callWithout {position opening closing : Nat} {name : String} {rest : List Lexeme} :
      Derives .primary 0 (⟨.name name, position⟩ :: ⟨.symbol .openParen, opening⟩ ::
        ⟨.symbol .closeParen, closing⟩ :: rest) rest (.call name [])
  | firstArgument {depth position opening : Nat} {name : String} {ts rest : List Lexeme}
      {e : Expr} :
      Derives .expression depth ts rest e →
      Derives .openCall depth
        (⟨.name name, position⟩ :: ⟨.symbol .openParen, opening⟩ :: ts) rest (.call name [e])
  | nextArgument {before depth comma : Nat} {name : String} {args : List Expr}
      {ts us rest : List Lexeme} {e : Expr} :
      Derives .openCall before ts (⟨.symbol .comma, comma⟩ :: us) (.call name args) →
      Derives .expression depth us rest e →
      Derives .openCall (max before depth) ts rest (.call name (args ++ [e]))
  | call {depth closing : Nat} {ts rest : List Lexeme} {e : Expr} :
      Derives .openCall depth ts (⟨.symbol .closeParen, closing⟩ :: rest) e →
      Derives .primary depth ts rest e

/-! ## How phrases start and end -/

/-- A phrase starts with a symbol only if that is a prefix or an opening
parenthesis; a primary starts with no prefix. -/
theorem Derives.head {c : Category} {depth : Nat} {ts rest : List Lexeme} {e : Expr}
    (h : Derives c depth ts rest e) {s : Symbol} {position : Nat} {us : List Lexeme}
    (hts : ts = ⟨.symbol s, position⟩ :: us) :
    s = .openParen ∨ s.prefix?.isSome ∧ c ≠ .primary ∧ c ≠ .openCall := by
  induction h generalizing position us with
  | expression _ ih => exact (ih hts).imp_right fun h => ⟨h.1, by simp⟩
  | operand _ ih => exact (ih hts).imp_right fun h => ⟨h.1, by simp⟩
  | looser _ ih => exact (ih hts).imp_right fun h => ⟨h.1, by simp⟩
  | binary _ _ _ ih _ => exact (ih hts).imp_right fun h => ⟨h.1, by simp⟩
  | base _ ih => exact (ih hts).imp_right fun h => ⟨h.1, by simp⟩
  | exponent _ _ ih _ => exact (ih hts).imp_right fun h => ⟨h.1, by simp⟩
  | plain _ ih => exact (ih hts).imp_right fun h => ⟨h.1, by simp⟩
  | signed hs _ _ =>
    cases hts
    exact .inr ⟨by rw [hs]; rfl, by simp⟩
  | parenthesized _ _ =>
    cases hts
    exact .inl rfl
  | call _ ih => exact (ih hts).imp_right fun h => absurd rfl h.2.2
  | nextArgument _ _ ih _ => exact ih hts
  | number => cases hts
  | text => cases hts
  | name => cases hts
  | callWithout => cases hts
  | firstArgument _ _ => cases hts

theorem Derives.ne_closeParen {c : Category} {depth : Nat} {ts rest : List Lexeme} {e : Expr}
    (h : Derives c depth ts rest e) (position : Nat) (us : List Lexeme) :
    ts ≠ ⟨.symbol .closeParen, position⟩ :: us := by
  intro hts
  rcases h.head hts with h | ⟨h, -⟩ <;> cases h

/-- What follows a phrase has no part in it. -/
theorem Derives.exists_append {c : Category} {depth : Nat} {ts rest : List Lexeme} {e : Expr}
    (h : Derives c depth ts rest e) :
    ∃ us, ts = us ++ rest ∧ ∀ more, Derives c depth (us ++ more) more e := by
  induction h with
  | expression _ ih =>
    obtain ⟨us, rfl, h⟩ := ih
    exact ⟨us, rfl, fun more => (h more).expression⟩
  | operand _ ih =>
    obtain ⟨us, rfl, h⟩ := ih
    exact ⟨us, rfl, fun more => (h more).operand⟩
  | looser _ ih =>
    obtain ⟨us, rfl, h⟩ := ih
    exact ⟨us, rfl, fun more => (h more).looser⟩
  | @binary level left right position s op ts us rest a b hs _ _ ihleft ihright =>
    obtain ⟨vs, rfl, hleft⟩ := ihleft
    obtain ⟨ws, rfl, hright⟩ := ihright
    refine ⟨vs ++ ⟨.symbol s, position⟩ :: ws, by simp, fun more => ?_⟩
    rw [List.append_assoc]
    exact (hleft _).binary hs (hright more)
  | base _ ih =>
    obtain ⟨us, rfl, h⟩ := ih
    exact ⟨us, rfl, fun more => (h more).base⟩
  | @exponent left right position ts us rest a b _ _ ihleft ihright =>
    obtain ⟨vs, rfl, hleft⟩ := ihleft
    obtain ⟨ws, rfl, hright⟩ := ihright
    refine ⟨vs ++ ⟨.symbol .power, position⟩ :: ws, by simp, fun more => ?_⟩
    rw [List.append_assoc]
    exact (hleft _).exponent (hright more)
  | plain _ ih =>
    obtain ⟨us, rfl, h⟩ := ih
    exact ⟨us, rfl, fun more => (h more).plain⟩
  | @signed depth position s op ts rest e hs _ ih =>
    obtain ⟨us, rfl, h⟩ := ih
    exact ⟨⟨.symbol s, position⟩ :: us, rfl, fun more => (h more).signed hs⟩
  | @number position value rest =>
    exact ⟨[⟨.number value, position⟩], rfl, fun _ => .number⟩
  | @text position value rest => exact ⟨[⟨.text value, position⟩], rfl, fun _ => .text⟩
  | @parenthesized depth opening closing ts rest e _ ih =>
    obtain ⟨us, rfl, h⟩ := ih
    refine ⟨⟨.symbol .openParen, opening⟩ :: (us ++ [⟨.symbol .closeParen, closing⟩]), by simp,
      fun more => ?_⟩
    rw [List.cons_append, List.append_assoc]
    exact (h _).parenthesized
  | @name position name rest => exact ⟨[⟨.name name, position⟩], rfl, fun _ => .name⟩
  | @callWithout position opening closing name rest =>
    exact ⟨[⟨.name name, position⟩, ⟨.symbol .openParen, opening⟩,
      ⟨.symbol .closeParen, closing⟩], rfl, fun _ => .callWithout⟩
  | @firstArgument depth position opening name ts rest e _ ih =>
    obtain ⟨us, rfl, h⟩ := ih
    exact ⟨⟨.name name, position⟩ :: ⟨.symbol .openParen, opening⟩ :: us, rfl,
      fun more => (h more).firstArgument⟩
  | @nextArgument before depth comma name args ts us rest e _ _ ihcall ih =>
    obtain ⟨vs, rfl, hcall⟩ := ihcall
    obtain ⟨ws, rfl, h⟩ := ih
    refine ⟨vs ++ ⟨.symbol .comma, comma⟩ :: ws, by simp, fun more => ?_⟩
    rw [List.append_assoc]
    exact (hcall _).nextArgument (h more)
  | @call depth closing ts rest e _ ih =>
    obtain ⟨us, rfl, h⟩ := ih
    refine ⟨us ++ [⟨.symbol .closeParen, closing⟩], by simp, fun more => ?_⟩
    rw [List.append_assoc]
    exact (h _).call

/-- How tightly a symbol holds on to the phrase before it. An opening parenthesis
makes a call of a name, `^` takes a base, an operator its left operand; the other
symbols never continue a phrase. -/
def Symbol.reach (s : Symbol) : Nat :=
  match s.operator? with
  | some (level, _) => level + 2
  | none => if s = .openParen then 0 else if s = .power then 1 else operatorLevels + 2

/-- The loosest symbols that continue a phrase of a category. -/
def Category.reach : Category → Nat
  | .expression | .openCall => operatorLevels + 1
  | .chain level => level + 1
  | .power => 1
  | .unary | .primary => 0

/-- Whether what follows cannot continue a phrase. -/
def Category.Ends (c : Category) (rest : List Lexeme) : Prop :=
  ∀ s position us, rest = ⟨.symbol s, position⟩ :: us → c.reach < s.reach

namespace Category

theorem Ends.of_le {c c' : Category} {rest : List Lexeme} (h : c'.Ends rest)
    (hle : c.reach ≤ c'.reach) : c.Ends rest :=
  fun s position us hrest => Nat.lt_of_le_of_lt hle (h s position us hrest)

theorem ends_nil (c : Category) : c.Ends [] := by
  intro s position us h
  cases h

theorem ends_cons_symbol {c : Category} {s : Symbol} {position : Nat} {us : List Lexeme} :
    c.Ends (⟨.symbol s, position⟩ :: us) ↔ c.reach < s.reach := by
  constructor
  · intro h
    exact h s position us rfl
  · intro h s' position' us' heq
    cases heq
    exact h

end Category

/-- An operator reaches past its level. -/
theorem Symbol.reach_of_operator {s : Symbol} {level : Nat} {op : BinaryOp}
    (h : s.operator? = some (level, op)) : s.reach = level + 2 := by
  rw [reach, h]

end Flipbook.Expression
