import Flipbook.Proofs.Expression.Rules

/-!
# What the parser accepts

The rules of the parser read exactly the phrases of the grammar, as far as these are
nested no deeper than the rules allow.

* `Derives.reaches`: a phrase that nothing continues is read, or refused as too deep.
* `Rules.sound_within`: what the rules read are phrases.
* `Derives.unique`: the grammar is unambiguous.
* `parseTokens_flat_iff`: which lists of tokens are programs of the flat dialect.
-/
namespace Flipbook.Expression

variable {α β : Type} {ts us rest : List Lexeme}

/-! ## Phrases are read -/

namespace Category

/-- The rule for a category when `n` more levels may be entered. A call that is
still open is read as a primary. -/
def rule (n : Nat) : Category → Rule Expr
  | .expression => (Rules.within n).expression
  | .chain level => chainRule (Rules.within (n + 1)).power level
  | .power => (Rules.within (n + 1)).power
  | .unary => (Rules.within (n + 1)).unary
  | .primary | .openCall => Expression.primary (Rules.within n).expression

/-- What the rule has done when it has read a phrase: a chain may still be extended
at its own level, and an open call goes on behind its argument. -/
def Reaches (n : Nat) : Category → List Lexeme → List Lexeme → Expr → Prop
  | .chain (level + 1), ts, rest, e =>
    ∃ h, (chain (level + 1)).rule n ts =
      extendChain ((chain level).rule n) (leftOp? level) ⟨e, rest, h⟩
  | .openCall, ts, rest, e =>
    ∃ name args, e = .call name args ∧
      Continues (Rules.within n).expression ts rest name args
  | c, ts, rest, e => Reads (c.rule n) ts e rest

/-- The category that must end where a phrase does: the operands of a chain, which
itself may be extended. -/
def closed : Category → Category
  | .chain (level + 1) => .chain level
  | c => c

theorem Reaches.reads_chain {n level : Nat} {e : Expr}
    (h : (chain level).Reaches n ts rest e) (hrest : (chain level).Ends rest) :
    Reads ((chain level).rule n) ts e rest := by
  cases level with
  | zero => exact h
  | succ level =>
    obtain ⟨hlt, h⟩ := h
    refine ⟨hlt, h.trans (extendChain_of_ends ?_)⟩
    intro s position us hs
    exact leftOp?_eq_none_of_lt (hrest s position us hs)

theorem closed_ends_chain {level : Nat} (h : (chain level).Ends rest) :
    (chain level).closed.Ends rest := by
  cases level with
  | zero => exact h
  | succ level => exact h.of_le (Nat.le_succ _)

/-- A chain is a chain of the next level. -/
theorem Reaches.looser {n level : Nat} {e : Expr} (h : (chain level).Reaches n ts rest e)
    (hrest : (chain level).Ends rest) : (chain (level + 1)).Reaches n ts rest e := by
  obtain ⟨hlt, h⟩ := h.reads_chain hrest
  refine ⟨hlt, ?_⟩
  show Expression.chain _ _ ts = _
  rw [Expression.chain, show chainRule _ level ts = _ from h]
  rfl

theorem exceeds_looser {n level : Nat} (h : Exceeds ((chain level).rule n) ts) :
    Exceeds ((chain (level + 1)).rule n) ts := by
  obtain ⟨us, h⟩ := h
  refine ⟨us, ?_⟩
  show Expression.chain _ _ ts = _
  rw [Expression.chain, show chainRule _ level ts = _ from h]
  rfl

/-- A chain is extended by an operator and an operand. -/
theorem Reaches.binary {n level position : Nat} {s : Symbol} {op : BinaryOp} {a b : Expr}
    (h : (chain (level + 1)).Reaches n ts (⟨.symbol s, position⟩ :: us) a)
    (hs : s.operator? = some (level, op)) (hright : Reads ((chain level).rule n) us b rest) :
    (chain (level + 1)).Reaches n ts rest (.binary op a b) := by
  obtain ⟨hlt, h⟩ := h
  obtain ⟨hlt', hright⟩ := hright
  obtain ⟨hlt'', hextend⟩ := extendChain_of_ok (leftOp?_eq_some_iff.2 hs) hright
  exact ⟨hlt'', h.trans hextend⟩

theorem Reaches.exceeds_binary {n level position : Nat} {s : Symbol} {op : BinaryOp} {a : Expr}
    (h : (chain (level + 1)).Reaches n ts (⟨.symbol s, position⟩ :: us) a)
    (hs : s.operator? = some (level, op)) (hright : Exceeds ((chain level).rule n) us) :
    Exceeds ((chain (level + 1)).rule n) ts := by
  obtain ⟨hlt, h⟩ := h
  obtain ⟨vs, hright⟩ := hright
  exact ⟨vs, h.trans (extendChain_of_error (leftOp?_eq_some_iff.2 hs) hright)⟩

end Category

/-- A phrase at whose end its operands must end is read when it is nested no deeper
than may be entered, and is too deep otherwise. -/
theorem Derives.reaches {c : Category} {depth : Nat} {e : Expr}
    (h : Derives c depth ts rest e) (n : Nat) (hrest : c.closed.Ends rest) :
    (depth ≤ n → c.Reaches n ts rest e) ∧ (n < depth → Exceeds (c.rule n) ts) := by
  induction h generalizing n with
  | @expression depth ts rest e hchain ih =>
    cases n with
    | zero => exact ⟨fun h => absurd h (by omega), fun _ => ⟨ts, rfl⟩⟩
    | succ n =>
      have hrule : (Rules.within (n + 1)).expression =
          (Category.chain operatorLevels).rule n := chains_eq _
      obtain ⟨hreads, hexceeds⟩ := ih n (hrest.of_le (by decide))
      refine ⟨fun h => ?_, fun h => ?_⟩
      · show Reads (Rules.within (n + 1)).expression ts e rest
        rw [hrule]
        exact (hreads (by omega)).reads_chain (hrest.of_le (by decide))
      · show Exceeds (Rules.within (n + 1)).expression ts
        rw [hrule]
        exact hexceeds (by omega)
  | operand hpower ih => exact ih n hrest
  | @looser level depth ts rest e hchain ih =>
    obtain ⟨hreaches, hexceeds⟩ := ih n (Category.closed_ends_chain hrest)
    exact ⟨fun h => (hreaches h).looser hrest,
      fun h => Category.exceeds_looser (hexceeds h)⟩
  | @binary level left right position s op ts us rest a b hs hleft hright ihleft ihright =>
    have hop : (Category.chain level).Ends (⟨.symbol s, position⟩ :: us) := by
      rw [Category.ends_cons_symbol, Symbol.reach_of_operator hs]
      exact Nat.lt_succ_self _
    obtain ⟨hleft, hleftExceeds⟩ := ihleft n hop
    obtain ⟨hright, hrightExceeds⟩ := ihright n (Category.closed_ends_chain hrest)
    refine ⟨fun h => ?_, fun h => ?_⟩
    · exact (hleft (by omega)).binary hs ((hright (by omega)).reads_chain hrest)
    · by_cases hdeep : n < left
      · exact hleftExceeds hdeep
      · exact (hleft (by omega)).exceeds_binary hs (hrightExceeds (by omega))
  | base hunary ih =>
    obtain ⟨hreads, hexceeds⟩ := ih n (hrest.of_le (by decide))
    exact ⟨fun h => Reads.base (hreads h) hrest, fun h => (hexceeds h).base⟩
  | @exponent left right position ts us rest a b hleft hright ihleft ihright =>
    obtain ⟨hleft, hleftExceeds⟩ := ihleft n (Category.ends_cons_symbol.2 (by decide))
    refine ⟨fun h => ?_, fun h => ?_⟩
    · cases n with
      | zero => omega
      | succ n =>
        exact Reads.exponent (hleft (by omega)) ((ihright n hrest).1 (by omega))
    · by_cases hdeep : n < left
      · exact (hleftExceeds hdeep).base
      · refine Reads.exceeds_exponent (hleft (by omega)) ?_
        cases n with
        | zero => exact ⟨us, rfl⟩
        | succ n => exact (ihright n hrest).2 (by omega)
  | @plain depth ts rest e hprimary ih =>
    have hrule : (Category.unary).rule n ts = (Category.primary).rule n ts := by
      refine unary_eq fun s position us hts => ?_
      rcases hprimary.head hts with rfl | ⟨_, hne, _⟩
      · rfl
      · exact absurd rfl hne
    obtain ⟨hreads, hexceeds⟩ := ih n hrest
    refine ⟨fun h => ?_, fun h => ?_⟩
    · obtain ⟨hlt, hread⟩ := hreads h
      exact ⟨hlt, hrule.trans hread⟩
    · obtain ⟨us, herror⟩ := hexceeds h
      exact ⟨us, hrule.trans herror⟩
  | @signed depth position s op ts rest e hs hunary ih =>
    cases n with
    | zero => exact ⟨fun h => absurd h (by omega), fun _ => Exceeds.signed hs ⟨ts, rfl⟩⟩
    | succ n =>
      obtain ⟨hreads, hexceeds⟩ := ih n hrest
      exact ⟨fun h => Reads.signed hs (hreads (by omega)),
        fun h => Exceeds.signed hs (hexceeds (by omega))⟩
  | number => exact ⟨fun _ => ⟨by simp, rfl⟩, fun h => absurd h (by omega)⟩
  | text => exact ⟨fun _ => ⟨by simp, rfl⟩, fun h => absurd h (by omega)⟩
  | parenthesized hexpression ih =>
    obtain ⟨hreads, hexceeds⟩ := ih n (Category.ends_cons_symbol.2 (by decide))
    exact ⟨fun h => Reads.parenthesized (hreads h), fun h => (hexceeds h).parenthesized⟩
  | name => exact ⟨fun _ => reads_named hrest, fun h => absurd h (by omega)⟩
  | callWithout =>
    exact ⟨fun _ => ⟨by simp only [List.length_cons]; omega, rfl⟩, fun h => absurd h (by omega)⟩
  | firstArgument hexpression ih =>
    obtain ⟨hreads, hexceeds⟩ := ih n hrest
    exact ⟨fun h => ⟨_, _, rfl, Reads.firstArgument (hreads h) hexpression.ne_closeParen⟩,
      fun h => (hexceeds h).firstArgument hexpression.ne_closeParen⟩
  | @nextArgument before depth comma name args ts us rest e hcall hexpression ihcall ih =>
    obtain ⟨hcall, hcallExceeds⟩ := ihcall n (Category.ends_cons_symbol.2 (by decide))
    obtain ⟨hreads, hexceeds⟩ := ih n hrest
    refine ⟨fun h => ?_, fun h => ?_⟩
    · obtain ⟨name, args, heq, hcontinues⟩ := hcall (by omega)
      cases heq
      exact ⟨_, _, rfl, hcontinues.nextArgument (hreads (by omega))⟩
    · by_cases hdeep : n < before
      · exact hcallExceeds hdeep
      · obtain ⟨name, args, heq, hcontinues⟩ := hcall (by omega)
        exact hcontinues.exceeds (hexceeds (by omega))
  | call hcall ih =>
    obtain ⟨hreads, hexceeds⟩ := ih n (Category.ends_cons_symbol.2 (by decide))
    refine ⟨fun h => ?_, hexceeds⟩
    obtain ⟨name, args, rfl, hcontinues⟩ := hreads h
    exact hcontinues.call

/-! ## What is read is a phrase -/

theorem bind_ok {ε : Type} {x : Except ε α} {f : α → Except ε β} {b : β}
    (h : (x >>= f) = .ok b) : ∃ a, x = .ok a ∧ f a = .ok b := by
  cases x with
  | error e => cases h
  | ok a => exact ⟨a, rfl, h⟩

theorem map_ok {ε : Type} {x : Except ε α} {f : α → β} {b : β} (h : x.map f = .ok b) :
    ∃ a, x = .ok a ∧ f a = b := by
  cases x with
  | error e => cases h
  | ok a => exact ⟨a, rfl, Except.ok.inj h⟩

theorem symbol_ok {s : Symbol} {p : Parsed Unit ts} (h : symbol s ts = .ok p) :
    ∃ position, ts = ⟨.symbol s, position⟩ :: p.rest := by
  unfold symbol at h
  split at h
  · cases h
  · next t us =>
    obtain ⟨token, position⟩ := t
    split at h
    · next s' hs =>
      split at h
      · next heq =>
        cases h
        cases heq
        cases hs
        exact ⟨position, rfl⟩
      · cases h
    · cases h

theorem closedBy_ok {s : Symbol} {rule : Rule α} {p : Parsed α ts}
    (h : closedBy s rule ts = .ok p) :
    ∃ position, Reads rule ts p.value (⟨.symbol s, position⟩ :: p.rest) := by
  obtain ⟨read, hread, h⟩ := bind_ok h
  obtain ⟨close, hclose, h⟩ := bind_ok h
  obtain ⟨position, hrest⟩ := symbol_ok hclose
  have hreads := exists_reads hread
  rw [hrest] at hreads
  cases h
  exact ⟨position, hreads⟩

/-- Whether a rule reads only phrases of a category that are nested less deep than a
bound. -/
def Sound (c : Category) (bound : Nat) (rule : Rule Expr) : Prop :=
  ∀ ts a rest, Reads rule ts a rest → ∃ depth, depth < bound ∧ Derives c depth ts rest a

namespace Sound

variable {bound : Nat} {expression nested operand : Rule Expr}

/-- An open call is closed, or goes on with another argument. -/
theorem call (hexpression : Sound .expression bound expression) {whole : List Lexeme}
    {depth : Nat} {name : String} {args : List Expr} (hdepth : depth < bound)
    (hcall : Derives .openCall depth whole ts (.call name args)) {p : Parsed (List Expr) ts}
    (h : afterArgument expression args ts = .ok p) :
    ∃ depth, depth < bound ∧ Derives .primary depth whole p.rest (.call name p.value) := by
  induction hlength : ts.length using Nat.strongRecOn generalizing ts depth args with
  | _ length ih =>
    unfold afterArgument at h
    split at h
    · cases h
      exact ⟨depth, hdepth, hcall.call⟩
    · obtain ⟨comma, hcomma, h⟩ := bind_ok h
      obtain ⟨more, hmore, h⟩ := bind_ok h
      obtain ⟨position, hts⟩ := symbol_ok hcomma
      cases h
      cases hnext : expression comma.rest with
      | error f =>
        rw [argumentsFrom_of_error hnext] at hmore
        cases hmore
      | ok next =>
        obtain ⟨e, rest, hlt⟩ := next
        rw [argumentsFrom_of_ok hnext] at hmore
        obtain ⟨later, hlater, rfl⟩ := map_ok hmore
        obtain ⟨depth', hdepth', hargument⟩ := hexpression _ _ _ ⟨hlt, hnext⟩
        rw [hts] at hcall
        refine ih rest.length ?_ ?_ (hcall.nextArgument hargument) hlater rfl
        · have hshorter := comma.shorter
          omega
        · exact Nat.max_lt.2 ⟨hdepth, hdepth'⟩

theorem primary (hexpression : Sound .expression bound expression) (hbound : 0 < bound) :
    Sound .primary bound (primary expression) := by
  rintro ts a rest ⟨hlt, h⟩
  unfold Expression.primary at h
  split at h
  · cases h
    exact ⟨0, hbound, .number⟩
  · cases h
    exact ⟨0, hbound, .text⟩
  · obtain ⟨read, hread, h⟩ := bind_ok h
    obtain ⟨position, hclosed⟩ := closedBy_ok hread
    obtain ⟨depth, hdepth, hderives⟩ := hexpression _ _ _ hclosed
    cases h
    exact ⟨depth, hdepth, hderives.parenthesized⟩
  · next name position opening ts =>
    obtain ⟨read, hread, h⟩ := bind_ok h
    cases h
    unfold arguments at hread
    split at hread
    · cases hread
      exact ⟨0, hbound, .callWithout⟩
    · cases hfirst : expression ts with
      | error f =>
        rw [argumentsFrom_of_error hfirst] at hread
        cases hread
      | ok first =>
        obtain ⟨e, us, hus⟩ := first
        rw [argumentsFrom_of_ok hfirst] at hread
        obtain ⟨later, hlater, rfl⟩ := map_ok hread
        obtain ⟨depth, hdepth, hargument⟩ := hexpression _ _ _ ⟨hus, hfirst⟩
        exact hexpression.call hdepth hargument.firstArgument hlater
  · cases h
    exact ⟨0, hbound, .name⟩
  · cases h

theorem unary (hnested : Sound .unary bound nested)
    (hoperand : Sound .primary (bound + 1) operand) :
    Sound .unary (bound + 1) (unary nested operand) := by
  have signed {s : Symbol} {op : UnaryOp} (hs : s.prefix? = some op) {ts rest : List Lexeme}
      {position : Nat} {e : Expr} (h : Reads nested ts e rest) :
      ∃ depth, depth < bound + 1 ∧
        Derives .unary depth (⟨.symbol s, position⟩ :: ts) rest (.unary op e) := by
    obtain ⟨depth, hdepth, hderives⟩ := hnested _ _ _ h
    exact ⟨depth + 1, Nat.succ_lt_succ hdepth, hderives.signed hs⟩
  rintro ts a rest ⟨hlt, h⟩
  unfold Expression.unary at h
  split at h
  · obtain ⟨read, hread, h⟩ := bind_ok h
    cases h
    exact signed rfl (exists_reads hread)
  · obtain ⟨read, hread, h⟩ := bind_ok h
    cases h
    exact signed rfl (exists_reads hread)
  · obtain ⟨depth, hdepth, hderives⟩ := hoperand _ _ _ ⟨hlt, h⟩
    exact ⟨depth, hdepth, hderives.plain⟩

theorem power (hnested : Sound .power bound nested)
    (hoperand : Sound .unary (bound + 1) operand) :
    Sound .power (bound + 1) (power nested operand) := by
  rintro ts a rest ⟨hlt, h⟩
  obtain ⟨base, hbase, h⟩ := bind_ok h
  obtain ⟨depth, hdepth, hderives⟩ := hoperand _ _ _ (exists_reads hbase)
  split at h
  · next position us hrest =>
    obtain ⟨read, hread, h⟩ := bind_ok h
    obtain ⟨depth', hdepth', hexponent⟩ := hnested _ _ _ (exists_reads hread)
    cases h
    rw [hrest] at hderives
    exact ⟨max depth (depth' + 1), Nat.max_lt.2 ⟨hdepth, Nat.succ_lt_succ hdepth'⟩,
      hderives.exponent hexponent⟩
  · cases h
    exact ⟨depth, hdepth, hderives.base⟩

/-- A chain that has been read so far is extended by operators of its level. -/
theorem extendChain {level depth : Nat} (hoperand : Sound (.chain level) bound operand)
    {left p : Parsed Expr ts} (hdepth : depth < bound)
    (hleft : Derives (.chain (level + 1)) depth ts left.rest left.value)
    (h : extendChain operand (leftOp? level) left = .ok p) :
    ∃ depth, depth < bound ∧ Derives (.chain (level + 1)) depth ts p.rest p.value := by
  induction hlength : left.rest.length using Nat.strongRecOn generalizing left depth with
  | _ length ih =>
    unfold Expression.extendChain at h
    split at h
    · next s position us hrest =>
      split at h
      · cases h
        exact ⟨depth, hdepth, hleft⟩
      · next op hop =>
        split at h
        · cases h
        · next right hright =>
          obtain ⟨depth', hdepth', hderives⟩ := hoperand _ _ _ (exists_reads hright)
          rw [hrest] at hleft
          refine ih right.rest.length ?_ (Nat.max_lt.2 ⟨hdepth, hdepth'⟩)
            (Derives.binary (leftOp?_eq_some_iff.1 hop) hleft hderives) h rfl
          have hshorter := right.shorter
          rw [← hlength, hrest, List.length_cons]
          omega
    · cases h
      exact ⟨depth, hdepth, hleft⟩

theorem chainRule (hoperand : Sound .power bound operand) (level : Nat) :
    Sound (.chain level) bound (chainRule operand level) := by
  induction level with
  | zero =>
    intro ts a rest h
    obtain ⟨depth, hdepth, hderives⟩ := hoperand _ _ _ h
    exact ⟨depth, hdepth, hderives.operand⟩
  | succ level ih =>
    rintro ts a rest ⟨hlt, h⟩
    obtain ⟨left, hleft, h⟩ := bind_ok h
    obtain ⟨depth, hdepth, hderives⟩ := ih _ _ _ (exists_reads hleft)
    exact ih.extendChain hdepth hderives.looser h

end Sound

/-- The nested rules read phrases that are nested no deeper than may be entered. -/
theorem Rules.sound_within (n : Nat) :
    Sound .expression (n + 1) (within n).expression ∧ Sound .power n (within n).power ∧
      Sound .unary n (within n).unary := by
  induction n with
  | zero => refine ⟨?_, ?_, ?_⟩ <;> rintro ts a rest ⟨_, h⟩ <;> cases h
  | succ n ih =>
    obtain ⟨hexpression, hpower, hunary⟩ := ih
    have hunary := hunary.unary (hexpression.primary (Nat.succ_pos n))
    have hpower := hpower.power hunary
    refine ⟨?_, hpower, hunary⟩
    intro ts a rest h
    rw [show (within (n + 1)).expression = Expression.chainRule (within (n + 1)).power
      operatorLevels from chains_eq _] at h
    obtain ⟨depth, hdepth, hderives⟩ := hpower.chainRule operatorLevels _ _ _ h
    exact ⟨depth + 1, Nat.succ_lt_succ hdepth, hderives.expression⟩

/-! ## Programs of the flat dialect -/

/-- A whole expression is read if it is not nested too deep. -/
theorem Derives.reads_within {depth n : Nat} {e : Expr}
    (h : Derives .expression depth ts [] e) (hdepth : depth ≤ n) :
    Reads (Rules.within n).expression ts e [] :=
  (h.reaches n (Category.ends_nil _)).1 hdepth

theorem Derives.exceeds_within {depth n : Nat} {e : Expr}
    (h : Derives .expression depth ts [] e) (hdepth : n < depth) :
    Exceeds (Rules.within n).expression ts :=
  (h.reaches n (Category.ends_nil _)).2 hdepth

/-- The grammar is unambiguous: tokens make up one expression at most, with nesting
of one depth. -/
theorem Derives.unique {depth depth' : Nat} {e e' : Expr}
    (h : Derives .expression depth ts [] e) (h' : Derives .expression depth' ts [] e') :
    e = e' ∧ depth = depth' := by
  have hle {depth depth' : Nat} {e e' : Expr} (h : Derives .expression depth ts [] e)
      (h' : Derives .expression depth' ts [] e') : depth' ≤ depth := by
    refine Nat.le_of_not_lt fun hlt => ?_
    exact (h.reads_within (Nat.le_refl depth)).not_exceeds (h'.exceeds_within hlt)
  have hdepth : depth = depth' := Nat.le_antisymm (hle h' h) (hle h h')
  exact ⟨((h.reads_within (Nat.le_of_eq hdepth)).unique (h'.reads_within (Nat.le_refl _))).1,
    hdepth⟩

theorem Derives.startsWith_openBrace {c : Category} {depth : Nat} {e : Expr}
    (h : Derives c depth ts rest e) : startsWith .openBrace ts = false := by
  unfold startsWith
  split
  · next s position us =>
    refine decide_eq_false ?_
    rintro rfl
    rcases h.head rfl with h | ⟨h, -⟩ <;> cases h
  · rfl

theorem program_of_flat (h : startsWith .openBrace ts = false) :
    program ts =
      match (Rules.within maxDepth).expression ts with
      | .ok p => if p.rest.isEmpty then .ok (.flat p.value) else fail .endOfExpression p.rest
      | .error f => .error f := by
  unfold program
  dsimp only
  rw [h, if_neg Bool.false_ne_true]
  cases (Rules.within maxDepth).expression ts <;> rfl

theorem program_ne_flat (h : startsWith .openBrace ts = true) (e : Expr) :
    program ts ≠ .ok (.flat e) := by
  unfold program
  dsimp only
  rw [h, if_pos rfl]
  cases (Rules.within maxDepth).block ts with
  | error f => nofun
  | ok p =>
    intro hp
    obtain ⟨q, hq, hp⟩ := bind_ok hp
    cases hq
    split at hp <;> cases hp

/-- A program is an expression if one is read and nothing is left. -/
theorem program_flat_iff {e : Expr} :
    program ts = .ok (.flat e) ↔
      startsWith .openBrace ts = false ∧ Reads (Rules.within maxDepth).expression ts e [] := by
  cases hbrace : startsWith .openBrace ts with
  | true => simp [program_ne_flat hbrace e]
  | false =>
    rw [program_of_flat hbrace]
    constructor
    · intro h
      split at h
      · next p hp =>
        split at h
        · next hrest =>
          cases h
          rw [List.isEmpty_iff] at hrest
          have hreads := exists_reads hp
          rw [hrest] at hreads
          exact ⟨rfl, hreads⟩
        · cases h
      · cases h
    · rintro ⟨-, hlt, hread⟩
      rw [hread]
      rfl

/-- A program makes up all the tokens. -/
theorem whole_ok_iff {p q : Program} {rest : List Lexeme} :
    ((if rest.isEmpty then pure q else fail .endOfExpression rest : Except Failure Program) =
      .ok p) ↔ rest = [] ∧ q = p := by
  cases rest with
  | nil => simp [pure, Except.pure]
  | cons t ts => simp [fail]

/-- A program is an expression or a block, read by the outermost nested rules. -/
theorem program_cases {p : Program} (h : program ts = .ok p) :
    (∃ e, p = .flat e ∧ Reads (Rules.within maxDepth).expression ts e []) ∨
      ∃ body, p = .block body ∧ Reads (Rules.within maxDepth).block ts body [] := by
  unfold program at h
  dsimp only at h
  split at h
  · obtain ⟨p, hp, hwhole⟩ := bind_ok h
    obtain ⟨body, hbody, rfl⟩ := map_ok hp
    obtain ⟨hrest, rfl⟩ := whole_ok_iff.1 hwhole
    have hreads := exists_reads hbody
    rw [show body.rest = [] from hrest] at hreads
    exact .inr ⟨body.value, rfl, hreads⟩
  · obtain ⟨p, hp, hwhole⟩ := bind_ok h
    obtain ⟨e, he, rfl⟩ := map_ok hp
    obtain ⟨hrest, rfl⟩ := whole_ok_iff.1 hwhole
    have hreads := exists_reads he
    rw [show e.rest = [] from hrest] at hreads
    exact .inl ⟨e.value, rfl, hreads⟩

theorem parseTokens_ok_iff {p : Program} : parseTokens ts = .ok p ↔ program ts = .ok p := by
  unfold parseTokens
  cases program ts with
  | error f => exact iff_of_false nofun nofun
  | ok q =>
    constructor
    · intro h
      exact congrArg Except.ok (Except.ok.inj h)
    · intro h
      exact congrArg Except.ok (Except.ok.inj h)

/-- A list of tokens is read as an expression exactly when it makes up one whose
nesting is not too deep, and one that is nested deeper is refused for that. -/
theorem parseTokens_flat_iff (ts : List Lexeme) (e : Expr) :
    (parseTokens ts = .ok (.flat e) ↔
      ∃ depth, depth ≤ maxDepth ∧ Derives .expression depth ts [] e) ∧
    ∀ depth, Derives .expression depth ts [] e → maxDepth < depth →
      ∃ position, parseTokens ts = .error (.tooDeep position) := by
  refine ⟨?_, ?_⟩
  · rw [parseTokens_ok_iff, program_flat_iff]
    constructor
    · rintro ⟨-, hreads⟩
      obtain ⟨depth, hdepth, hderives⟩ := (Rules.sound_within maxDepth).1 _ _ _ hreads
      exact ⟨depth, Nat.le_of_lt_succ hdepth, hderives⟩
    · rintro ⟨depth, hdepth, hderives⟩
      exact ⟨hderives.startsWith_openBrace, hderives.reads_within hdepth⟩
  · intro depth hderives hdepth
    obtain ⟨us, hexceeds⟩ := hderives.exceeds_within hdepth
    unfold parseTokens
    rw [program_of_flat hderives.startsWith_openBrace, hexceeds]
    cases us with
    | nil => exact ⟨_, rfl⟩
    | cons t us => exact ⟨t.position, rfl⟩

end Flipbook.Expression
