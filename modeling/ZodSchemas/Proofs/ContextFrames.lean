import ZodSchemas.Proofs.CompiledFiles

namespace ZodSchemas

/-!
# What units depend on in a context

Of the enumerations of a context only membership counts, and of its renamed raw
operations only what a name leads to.  Contexts that agree in this, and in
everything else, yield the same units and the same texts.
-/

open Metadata

/-- Two contexts answer alike to every question about names and are the same otherwise. -/
structure Context.Alike (first second : Context) : Prop where
  isEnum : ∀ name, second.isEnum name = first.isEnum name
  rawOperation? : ∀ name, second.rawOperation? name = first.rawOperation? name
  others :
    second = { first with enumNames := second.enumNames, rawOperations := second.rawOperations }

namespace Assembly

variable {first second : Context} (alike : first.Alike second)

include alike

theorem compositeUnitName_congr
    (name : String) :
    compositeUnitName second name = compositeUnitName first name := by
  rw [compositeUnitName, compositeUnitName, alike.rawOperation?]

theorem referenceBase?_congr
    (owner : String)
    (alternative : TypeAlternative) :
    referenceBase? second owner alternative = referenceBase? first owner alternative := by
  have sameKind : referenceKind? second alternative = referenceKind? first alternative := by
    simp only [referenceKind?, alike.isEnum]
  have sameComposite :
      compositeReference second owner alternative = compositeReference first owner alternative := by
    simp only [compositeReference, compositeUnitName_congr alike]
  rw [referenceBase?, referenceBase?, sameKind, sameComposite]

theorem compositeUnit_congr
    (composite : Composite) :
    compositeUnit second composite = compositeUnit first composite := by
  have sameNames : compositeNames second composite.name = compositeNames first composite.name := by
    rw [compositeNames, compositeNames, alike.rawOperation?]
  have sameAlternatives (field : InputField) :
      alternative? second composite.name field = alternative? first composite.name field := by
    funext alternative
    rw [alternative?, alternative?, referenceAlternative?, referenceAlternative?,
      referenceBase?_congr alike]
  have sameFields : fieldOf? second composite.name = fieldOf? first composite.name := by
    funext field
    rw [fieldOf?, fieldOf?, fieldExpr?, fieldExpr?, sameAlternatives]
  rw [compositeUnit, compositeUnit, sameNames, compositeFields, compositeFields, sameFields]

theorem operationUnit_congr
    (document : Document)
    (model : Model)
    (operation : Operation) :
    operationUnit second document model operation =
      operationUnit first document model operation := by
  rw [alike.others]
  cases operation <;> rfl

theorem projections_congr
    (models : List Model) :
    projections second models = projections first models := by
  rw [alike.others]
  rfl

theorem text_congr
    (workingDirectory : String)
    (unit : SchemaUnit) :
    unit.text workingDirectory second = unit.text workingDirectory first := by
  rw [alike.others]
  rfl

theorem exportLine_congr
    (stem : String) :
    SchemaUnit.exportLine second stem = SchemaUnit.exportLine first stem := by
  rw [alike.others]
  rfl

end Assembly

end ZodSchemas
