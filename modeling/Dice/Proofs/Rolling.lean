import Mathlib
import Dice.Roller.Basic

namespace Dice.Rolling

variable {σ α β : Type}

/-- What a computation gives from a state, and the state that it leaves. -/
def runFrom (draw : Rolling σ α) (start : σ) : Except Fault α × σ :=
  draw.run start

section

variable {first : Rolling σ α} {next : α → Rolling σ β} {start middle finish : σ} {value : α}
  {result : β} {fault : Fault}

theorem runFrom_bind_of_ok (drawn : first.runFrom start = (.ok value, middle)) :
    (first >>= next).runFrom start = (next value).runFrom middle := by
  change ExceptT.bindCont next (first.runFrom start).1 (first.runFrom start).2 = _
  rw [drawn]
  rfl

theorem runFrom_bind_of_error (failed : first.runFrom start = (.error fault, finish)) :
    (first >>= next).runFrom start = (.error fault, finish) := by
  change ExceptT.bindCont next (first.runFrom start).1 (first.runFrom start).2 = _
  rw [failed]
  rfl

theorem runFrom_bind_eq_ok_iff : (first >>= next).runFrom start = (.ok result, finish) ↔
    ∃ value middle, first.runFrom start = (.ok value, middle) ∧
      (next value).runFrom middle = (.ok result, finish) := by
  rcases drawn : first.runFrom start with ⟨_ | value, middle⟩
  · rw [runFrom_bind_of_error drawn]
    simp
  · rw [runFrom_bind_of_ok drawn]
    simp [and_assoc]

theorem runFrom_bind_eq_error_iff : (first >>= next).runFrom start = (.error fault, finish) ↔
    first.runFrom start = (.error fault, finish) ∨
      ∃ value middle, first.runFrom start = (.ok value, middle) ∧
        (next value).runFrom middle = (.error fault, finish) := by
  rcases drawn : first.runFrom start with ⟨_ | value, middle⟩
  · rw [runFrom_bind_of_error drawn]
    simp
  · rw [runFrom_bind_of_ok drawn]
    simp [and_assoc]

/-- What follows a computation matters only for the values and states that the computation can
give. -/
theorem runFrom_bind_congr {other : α → Rolling σ β}
    (same : ∀ value middle, first.runFrom start = (.ok value, middle) →
      (next value).runFrom middle = (other value).runFrom middle) :
    (first >>= next).runFrom start = (first >>= other).runFrom start := by
  rcases drawn : first.runFrom start with ⟨fault | value, middle⟩
  · rw [runFrom_bind_of_error drawn, runFrom_bind_of_error drawn]
  · rw [runFrom_bind_of_ok drawn, runFrom_bind_of_ok drawn, same value middle drawn]

theorem runFrom_map (change : α → β) (draw : Rolling σ α) (start : σ) :
    (change <$> draw).runFrom start =
      ((draw.runFrom start).1.map change, (draw.runFrom start).2) := by
  rw [map_eq_pure_bind]
  rcases drawn : draw.runFrom start with ⟨fault | value, finish⟩
  · rw [runFrom_bind_of_error drawn]
    rfl
  · rw [runFrom_bind_of_ok drawn]
    rfl

theorem ext_runFrom {first second : Rolling σ α}
    (same : ∀ start, first.runFrom start = second.runFrom start) : first = second :=
  funext same

end

/-- The elements of a list are dealt with in order, each from the state that the one before it
left. -/
inductive Chain (step : α → σ → β → σ → Prop) : List α → σ → List β → σ → Prop where
  | nil {state : σ} : Chain step [] state [] state
  | cons {element : α} {elements : List α} {result : β} {results : List β}
      {start middle finish : σ} (first : step element start result middle)
      (others : Chain step elements middle results finish) :
      Chain step (element :: elements) start (result :: results) finish

section

variable {step : α → σ → β → σ → Prop} {draw : α → Rolling σ β} {elements : List α}
  {results : List β} {start finish : σ} {fault : Fault}

theorem Chain.imp {other : α → σ → β → σ → Prop}
    (weaker : ∀ element start result finish, step element start result finish →
      other element start result finish)
    (chain : Chain step elements start results finish) :
    Chain other elements start results finish := by
  induction chain with
  | nil => exact .nil
  | cons first others ih => exact .cons (weaker _ _ _ _ first) ih

/-- What each step says of its element and result holds all along the lists. -/
theorem Chain.forall₂ {related : α → β → Prop}
    (fact : ∀ element start result finish, step element start result finish →
      related element result)
    (chain : Chain step elements start results finish) :
    List.Forall₂ related elements results := by
  induction chain with
  | nil => exact .nil
  | cons first others ih => exact .cons (fact _ _ _ _ first) ih

theorem runFrom_mapM_eq_ok_iff : (elements.mapM draw).runFrom start = (.ok results, finish) ↔
    Chain (fun element start result finish => (draw element).runFrom start = (.ok result, finish))
      elements start results finish := by
  induction elements generalizing start results with
  | nil =>
    constructor
    · intro drawn
      cases drawn
      exact .nil
    · intro chain
      cases chain
      rfl
  | cons element elements ih =>
    rw [List.mapM_cons, runFrom_bind_eq_ok_iff]
    constructor
    · intro drawn
      obtain ⟨result, middle, first, rest⟩ := drawn
      obtain ⟨results, last, others, ⟨⟩⟩ := runFrom_bind_eq_ok_iff.mp rest
      exact .cons first (ih.mp others)
    · intro chain
      cases chain
      rename_i first others
      exact ⟨_, _, first, runFrom_bind_eq_ok_iff.mpr ⟨_, _, ih.mpr others, rfl⟩⟩

/-- Drawing for each element fails as the first draw that fails does, after all before it have
succeeded. -/
theorem runFrom_mapM_eq_error_iff :
    (elements.mapM draw).runFrom start = (.error fault, finish) ↔
      ∃ before element after results middle, elements = before ++ element :: after ∧
        Chain (fun element start result finish =>
          (draw element).runFrom start = (.ok result, finish)) before start results middle ∧
        (draw element).runFrom middle = (.error fault, finish) := by
  induction elements generalizing start with
  | nil =>
    constructor
    · intro failed
      cases failed
    · intro found
      obtain ⟨before, element, after, _, _, split, _⟩ := found
      cases before <;> cases split
  | cons element elements ih =>
    rw [List.mapM_cons, runFrom_bind_eq_error_iff]
    constructor
    · intro failed
      rcases failed with failed | ⟨result, middle, first, rest⟩
      · exact ⟨[], element, elements, [], start, rfl, .nil, failed⟩
      · rcases runFrom_bind_eq_error_iff.mp rest with failed | ⟨_, _, _, ⟨⟩⟩
        obtain ⟨before, other, after, results, last, rfl, chain, failed⟩ := ih.mp failed
        exact ⟨element :: before, other, after, result :: results, last, rfl, .cons first chain,
          failed⟩
    · intro found
      obtain ⟨before, other, after, results, last, split, chain, failed⟩ := found
      cases chain with
      | nil =>
        cases split
        exact .inl failed
      | cons first others =>
        cases split
        exact .inr ⟨_, _, first, runFrom_bind_eq_error_iff.mpr
          (.inl (ih.mpr ⟨_, other, after, _, _, rfl, others, failed⟩))⟩

end

/-- A computation that gives the same as another one whose source is only a view of its own. -/
def Follows {τ : Type} (view : σ → τ) (draw : Rolling σ α) (shown : Rolling τ α) : Prop :=
  ∀ start, (draw.runFrom start).map id view = shown.runFrom (view start)

section

variable {τ : Type} {view : σ → τ}

theorem Follows.pure (value : α) : Follows view (Pure.pure value) (Pure.pure value) :=
  fun _ => rfl

theorem Follows.throw (fault : Fault) :
    Follows view (MonadExcept.throw fault : Rolling σ α) (MonadExcept.throw fault) :=
  fun _ => rfl

theorem Follows.bind {draw : Rolling σ α} {shown : Rolling τ α} {next : α → Rolling σ β}
    {next' : α → Rolling τ β} (first : Follows view draw shown)
    (others : ∀ value, Follows view (next value) (next' value)) :
    Follows view (draw >>= next) (shown >>= next') := by
  intro start
  have same := first start
  rcases drawn : draw.runFrom start with ⟨fault | value, middle⟩
  · rw [drawn] at same
    rw [runFrom_bind_of_error drawn, runFrom_bind_of_error same.symm]
    rfl
  · rw [drawn] at same
    rw [runFrom_bind_of_ok drawn, runFrom_bind_of_ok same.symm]
    exact others value middle

theorem Follows.mapM {draw : α → Rolling σ β} {shown : α → Rolling τ β}
    (each : ∀ element, Follows view (draw element) (shown element)) (elements : List α) :
    Follows view (elements.mapM draw) (elements.mapM shown) := by
  induction elements with
  | nil => exact .pure []
  | cons element elements ih =>
    rw [List.mapM_cons, List.mapM_cons]
    exact (each element).bind fun result => ih.bind fun results => .pure (result :: results)

end

/-- What is drawn for each element can be changed one by one or all together. -/
theorem mapM_map_eq {γ : Type} (change : β → γ) (draw : α → Rolling σ β) (elements : List α) :
    (elements.mapM fun element => change <$> draw element) =
      List.map change <$> elements.mapM draw := by
  induction elements with
  | nil => simp
  | cons element elements ih => simp [ih]

/-- What is drawn for each element can be put together at once or when everything is drawn. -/
theorem foldlM_map_eq {γ : Type} (add : γ → β → γ) (draw : α → Rolling σ β) (elements : List α)
    (start : γ) :
    elements.foldlM (fun gathered element => add gathered <$> draw element) start =
      List.foldl add start <$> elements.mapM draw := by
  induction elements generalizing start with
  | nil => simp
  | cons element elements ih => simp [ih]

theorem mapM_flatMap {γ : Type} (inner : α → List γ) (draw : γ → Rolling σ β)
    (elements : List α) :
    (do
      let blocks ← elements.mapM fun element => (inner element).mapM draw
      return blocks.flatten) = (elements.flatMap inner).mapM draw := by
  induction elements with
  | nil => simp
  | cons element elements ih =>
    rw [List.flatMap_cons, List.mapM_append, ← ih]
    simp

end Dice.Rolling
