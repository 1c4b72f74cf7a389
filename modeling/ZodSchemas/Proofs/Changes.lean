import ZodSchemas.FileTree.Change

namespace ZodSchemas

/-!
# What a change yields

A change yields a result in a tree and leaves another tree, also where it fails.
One equation for each way of making changes says what both are.
-/

/-- A sequence of steps goes on in the tree that its first step leaves, unless that fails. -/
theorem run_bind_eq
    (step : ExceptT ε (StateM FileTree) α)
    (next : α → ExceptT ε (StateM FileTree) β)
    (tree : FileTree) :
    (step >>= next).run.run tree =
      match step.run.run tree with
      | (.ok value, left) => (next value).run.run left
      | (.error fault, left) => (.error fault, left) := by
  change (match step.run.run tree with
    | (result, left) => (ExceptT.bindCont next result).run left) = _
  rcases step.run.run tree with ⟨_ | _, left⟩ <;> rfl

/-- A step all of whose values have a property, whatever tree it is made in. -/
def Yields (holds : α → Prop) (step : ExceptT ε (StateM FileTree) α) : Prop :=
  ∀ tree value left, step.run.run tree = (.ok value, left) → holds value

namespace Yields

theorem pure
    {holds : α → Prop}
    {value : α}
    (atValue : holds value) :
    Yields holds (Pure.pure value : ExceptT ε (StateM FileTree) α) := by
  rintro tree _ left ⟨⟩
  exact atValue

theorem throw
    (holds : α → Prop)
    (fault : ε) :
    Yields holds (MonadExcept.throw fault : ExceptT ε (StateM FileTree) α) := by
  rintro tree value left ⟨⟩

theorem any
    (step : ExceptT ε (StateM FileTree) α) :
    Yields (fun _ => True) step :=
  fun _ _ _ _ => trivial

theorem bind
    {first : α → Prop}
    {holds : β → Prop}
    {step : ExceptT ε (StateM FileTree) α}
    {next : α → ExceptT ε (StateM FileTree) β}
    (yields : Yields first step)
    (yieldsToo : ∀ value, first value → Yields holds (next value)) :
    Yields holds (step >>= next) := by
  intro tree result left isLeft
  rw [run_bind_eq] at isLeft
  rcases found : step.run.run tree with ⟨fault | value, middle⟩ <;> rw [found] at isLeft
  · cases isLeft
  · exact yieldsToo value (yields tree value middle found) middle result left isLeft

end Yields

namespace Change

/-- What a change yields in a tree, and the tree it leaves. -/
def inTree (change : Change α) (tree : FileTree) : Except FileFault α × FileTree :=
  change.run.run tree

@[simp] theorem inTree_pure
    (value : α)
    (tree : FileTree) :
    (pure value : Change α).inTree tree = (.ok value, tree) :=
  rfl

@[simp] theorem inTree_get
    (tree : FileTree) :
    (get : Change FileTree).inTree tree = (.ok tree, tree) :=
  rfl

@[simp] theorem inTree_put
    (place : Place)
    (entry : FileEntry)
    (tree : FileTree) :
    (put place entry).inTree tree = (.ok (), tree.put place entry) :=
  rfl

theorem inTree_bind
    (change : Change α)
    (next : α → Change β)
    (tree : FileTree) :
    (change >>= next).inTree tree =
      match change.inTree tree with
      | (.ok value, left) => (next value).inTree left
      | (.error fault, left) => (.error fault, left) := by
  unfold inTree
  rw [run_bind_eq]
  rcases change.run.run tree with ⟨_ | _, left⟩ <;> rfl

@[simp] theorem inTree_ask
    (question : FileTree → Except FileFault α)
    (tree : FileTree) :
    (ask question).inTree tree = (question tree, tree) := by
  unfold ask
  rw [inTree_bind, inTree_get]
  dsimp only
  cases question tree <;> rfl

/-- An attempt does not fail; its value says how it has ended. -/
@[simp] theorem inTree_attempt
    (change : Change α)
    (tree : FileTree) :
    (attempt change).inTree tree = (.ok (change.inTree tree).1, (change.inTree tree).2) := by
  rcases found : change.inTree tree with ⟨result, left⟩
  simp only [attempt, inTree, ExceptT.map, tryCatch, tryCatchThe, MonadExceptOf.tryCatch,
    ExceptT.tryCatch, ExceptT.run_mk, StateT.run_bind]
  change StateT.run change tree = (result, left) at found
  simp only [bind, StateT.bind, ExceptT.mk, StateT.run] at found ⊢
  rw [found]
  cases result <;> rfl

/-- The value of an attempt that has succeeded has the property of all values. -/
theorem yields_attempt
    {holds : α → Prop}
    {change : Change α}
    (yields : Yields holds change) :
    Yields (fun result => ∀ value, result = .ok value → holds value) (attempt change) := by
  intro tree result left isLeft value isOk
  change (attempt change).inTree tree = _ at isLeft
  rw [inTree_attempt] at isLeft
  obtain ⟨sameResult, -⟩ := Prod.mk.inj isLeft
  have ends : (change.inTree tree).1 = .ok value :=
    (Except.ok.inj sameResult).trans isOk
  exact yields tree value (change.inTree tree).2 (Prod.ext ends rfl)

end Change

end ZodSchemas
