import Stencil.Proofs.Course.Agreement

/-!
# Nodes in sequence

A root evaluates its children from left to right and makes one text of their values.  It ends as the
evaluation of the children one by one ends, and its text is the sum of their values, starting from
the empty string (`Context.evaluate_root_eq_total`).

Children can be evaluated part by part: a root with some children, and then one with the others,
which goes on in the context that the first one leaves.  So a root among the children of a root
makes no difference (`Context.evaluate_root_append`).
-/

namespace Stencil

namespace Value

/-- The sum of values, starting from the empty string. -/
def total (values : List Value) : Attempt Value := values.foldlM add empty

/-- The display texts of values, one after the other. -/
def texts (values : List Value) : String := String.join (values.map display)

variable (values : List Value)

/-- A string and another value are never added as numbers. -/
theorem numberPair_of_string (text : String) (v : Value) :
  NumberPair.of? (string text) v = none
  := by cases v <;> rfl

theorem add_to_string (text : String) (v : Value) :
  (string text).add v = .ok (string (text ++ v.display))
  := by rw [add, numberPair_of_string, display]

theorem foldlM_add_string (text : String) :
  values.foldlM add (string text) = .ok (string (text ++ texts values))
  := by
  induction values generalizing text with
  | nil => rw [List.foldlM_nil, texts, List.map_nil, String.join_nil, String.append_empty]; rfl
  | cons v rest ih =>
      rw [List.foldlM_cons, add_to_string]
      apply (ih _).trans
      rw [texts, texts, List.map_cons, String.join_cons, String.append_assoc]

/-- Values always have a sum, which is a string. -/
theorem total_eq :
  total values = .ok (string (texts values))
  := by rw [total, empty, foldlM_add_string, String.empty_append]

end Value

/-! ### One by one -/

/-- What a root makes of what its children give one by one. -/
def Values.joined : Values → Result
  | all values => proceed (.string (Value.texts values))
  | blocked outcome => .ok outcome

namespace Node

variable (answer : Answer) (nodes : List Node) (before : List Value) (env : Environment)

/-- Putting the display texts of nodes together gives the same as evaluating the nodes one by one
and putting together what they give. -/
theorem concatenate_eq_evaluateEach :
  concatenate answer nodes (Value.texts before.reverse) env
    = ((evaluateEach answer nodes before env).1.bind Values.joined,
        (evaluateEach answer nodes before env).2)
  := by
  induction nodes generalizing before env with
  | nil =>
      rw [concatenate, evaluateEach]
      rfl
  | cons n rest ih =>
      rw [concatenate, evaluateEach]
      rcases n.evaluate answer env with ⟨e | ⟨v⟩ | ⟨v, s⟩ | ⟨v, s⟩, env'⟩
      case ok.proceed =>
        have htexts : Value.texts before.reverse ++ v.display = Value.texts (v :: before).reverse := by
          simp [Value.texts]
        rw [← ih, ← htexts]
        rfl
      all_goals rfl

/-- What ends the evaluation of nodes one by one is an outcome that blocks. -/
theorem blocks_of_evaluateEach {outcome : Outcome}
    (h : (evaluateEach answer nodes before env).1 = .ok (.blocked outcome)) :
  outcome.blocks = true
  := by
  induction nodes generalizing before env with
  | nil => cases h
  | cons n rest ih =>
      rw [evaluateEach] at h
      generalize n.evaluate answer env = r at h
      rcases r with ⟨e | ⟨v⟩ | ⟨v, s⟩ | ⟨v, s⟩, env'⟩
      case error => cases h
      case ok.proceed => apply ih _ _ h
      case ok.returning | ok.terminating =>
        obtain rfl := Values.blocked.inj (Except.ok.inj h)
        rfl

end Node

namespace Context

variable (c : Context)

theorem evaluate_root (nodes : List Node) :
  c.evaluate (.root nodes)
    = ((Node.concatenate c.answer nodes "" c.environment).1,
        c.withEnvironment (Node.concatenate c.answer nodes "" c.environment).2)
  := by rw [evaluate, Node.evaluate]

theorem evaluate_root_eq_joined (nodes : List Node) :
  c.evaluate (.root nodes)
    = ((c.evaluateEach nodes).1.bind Values.joined, (c.evaluateEach nodes).2)
  := by
  have htexts : Value.texts [].reverse = "" := rfl
  rw [evaluate_root, ← htexts, Node.concatenate_eq_evaluateEach]
  rfl

/-- A root and the evaluation of its children one by one leave the same context behind.  They end
with the same error or with the same outcome that blocks; or the children have values, of which the
root gives the sum, starting from the empty string.  The sum of the values up to some point is a
string, so that the next one is added to it as a text. -/
theorem evaluate_root_eq_total (nodes : List Node) :
  (c.evaluate (.root nodes)).2 = (c.evaluateEach nodes).2
    ∧ ((∃ e, (c.evaluateEach nodes).1 = .error e ∧ (c.evaluate (.root nodes)).1 = .error e)
      ∨ (∃ outcome, outcome.blocks = true
        ∧ (c.evaluateEach nodes).1 = .ok (.blocked outcome)
        ∧ (c.evaluate (.root nodes)).1 = .ok outcome)
      ∨ ∃ values text, (c.evaluateEach nodes).1 = .ok (.all values)
        ∧ (c.evaluate (.root nodes)).1 = proceed (.string text)
        ∧ Value.total values = .ok (.string text)
        ∧ ∀ before v after, values = before ++ v :: after →
          ∃ sum, Value.total before = .ok (.string sum)
            ∧ NumberPair.of? (.string sum) v = none
            ∧ (Value.string sum).add v = .ok (.string (sum ++ v.display)))
  := by
  rw [evaluate_root_eq_joined]
  refine ⟨rfl, ?_⟩
  cases heach : (c.evaluateEach nodes).1 with
  | error e => exact .inl ⟨e, rfl, rfl⟩
  | ok values =>
      right
      cases values with
      | blocked outcome =>
          left
          exact ⟨outcome, Node.blocks_of_evaluateEach _ _ _ _ heach, rfl, rfl⟩
      | all values =>
          right
          refine ⟨values, Value.texts values, rfl, rfl, Value.total_eq values, ?_⟩
          intro before v after _
          exact ⟨Value.texts before, Value.total_eq before, Value.numberPair_of_string _ v,
            Value.add_to_string _ v⟩

/-- Numbers after one another are not added up. -/
example :
  ((root .standard).evaluate (.root [.literal (.integer 1), .literal (.integer 2)])).1
    = proceed (.string "12")
  := rfl

end Context

/-! ### Part by part -/

/-- The result with a text before its value; an error and an outcome that blocks stay as they
are. -/
def Result.prepend (text : String) (r : Result) : Result :=
  r.map fun
    | .proceed v => .proceed (.string (text ++ v.display))
    | outcome => outcome

namespace Node

variable (answer : Answer) (xs ys : List Node) (text : String) (env : Environment)

/-- The display texts of nodes and of further nodes are put together one part after the other. -/
theorem concatenate_append :
  concatenate answer (xs ++ ys) text env
    = proceeding (concatenate answer xs text env) fun v env =>
        concatenate answer ys v.display env
  := by
  induction xs generalizing text env with
  | nil =>
      rw [List.nil_append, concatenate]
      rfl
  | cons n rest ih =>
      rw [List.cons_append, concatenate, concatenate]
      rcases n.evaluate answer env with ⟨e | ⟨v⟩ | ⟨v, s⟩ | ⟨v, s⟩, env'⟩
      case ok.proceed => apply ih
      all_goals rfl

/-- The text from which putting texts together starts comes before what is put together. -/
theorem concatenate_prepend (more : String) :
  concatenate answer ys (text ++ more) env
    = (Result.prepend text (concatenate answer ys more env).1, (concatenate answer ys more env).2)
  := by
  induction ys generalizing more env with
  | nil =>
      rw [concatenate, concatenate]
      rfl
  | cons n rest ih =>
      rw [concatenate, concatenate]
      rcases n.evaluate answer env with ⟨e | ⟨v⟩ | ⟨v, s⟩ | ⟨v, s⟩, env'⟩
      case ok.proceed =>
        simp only [proceeding, String.append_assoc]
        apply ih
      all_goals rfl

/-- Putting texts together gives a text, unless it is blocked. -/
theorem concatenate_blocks_or :
  Result.blocks (concatenate answer xs text env).1 = true
    ∨ ∃ whole, (concatenate answer xs text env).1 = proceed (.string whole)
  := by
  induction xs generalizing text env with
  | nil =>
      right
      exact ⟨text, by rw [concatenate]⟩
  | cons n rest ih =>
      rw [concatenate]
      rcases n.evaluate answer env with ⟨e | ⟨v⟩ | ⟨v, s⟩ | ⟨v, s⟩, env'⟩
      case ok.proceed => apply ih
      all_goals exact .inl rfl

end Node

namespace Context

/-- A root with some children is blocked, and then so is a root with these and further ones, whatever
they are: it ends with the same result and leaves the same context behind.  Or it gives a text; then
the root with further children goes on as a root with only these, in the context that the first one
leaves behind, with the text before whatever they give.

So it makes no difference whether the first children have a root of their own. -/
theorem evaluate_root_append (c : Context) (xs : List Node) :
  ((Result.blocks (c.evaluate (.root xs)).1 = true
      ∧ ∀ ys, c.evaluate (.root (xs ++ ys)) = c.evaluate (.root xs))
    ∨ ∃ text d, c.evaluate (.root xs) = (proceed (.string text), d)
      ∧ ∀ ys, c.evaluate (.root (xs ++ ys))
        = (Result.prepend text (d.evaluate (.root ys)).1, (d.evaluate (.root ys)).2))
    ∧ ∀ ys, c.evaluate (.root (.root xs :: ys)) = c.evaluate (.root (xs ++ ys))
  := by
  constructor
  · simp only [evaluate_root, Node.concatenate_append]
    have hxs := Node.concatenate_blocks_or c.answer xs "" c.environment
    generalize Node.concatenate c.answer xs "" c.environment = r at hxs ⊢
    obtain ⟨result, env⟩ := r
    obtain hblocks | ⟨text, rfl⟩ := hxs
    · left
      exact ⟨hblocks, fun ys => by rw [proceeding_of_blocks hblocks]⟩
    · right
      refine ⟨text, c.withEnvironment env, rfl, fun ys => ?_⟩
      have hys := Node.concatenate_prepend c.answer ys text env ""
      rw [String.append_empty] at hys
      exact congrArg (fun r => (r.1, c.withEnvironment r.2)) hys
  · intro ys
    rw [evaluate_root, evaluate_root, Node.concatenate_append, Node.concatenate, Node.evaluate]
    simp only [String.empty_append]

end Context

end Stencil
