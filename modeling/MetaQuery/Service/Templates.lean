/-
  MetaQuery/Service/Templates.lean
  ================================
  Templates: named lists of conditions that are put behind the chain of a model.  Of the
  templates of a model one may be the default, which applies when a request names none.
-/
import MetaQuery.Session.Metadata

namespace MetaQuery.Templates

/-- The first template of a model that is flagged as default. -/
def default? (model : String) : Action (Option Template) := do
  return (← Metadata.templatesOf model).find? (·.isDefault)

/-- The conditions of a template behind the chain of a model. -/
def extend (m : Model) (t : Template) : Model :=
  { m with conditions := m.conditions ++ t.conditions }

/-- A model with the conditions of the template with an id. -/
def apply (id : String) (m : Model) : Action Model := do
  match ← Metadata.template? id with
  | some t => return extend m t
  | none => throw (.notFound (.template id))

/-- A model, found under an id, with the conditions of the template that a request chooses, or
    of the default. -/
def applyChosen (model : String) (choice : Option String) (m : Model) : Action Model := do
  match choice with
  | some id => apply id m
  | none =>
    match ← default? model with
    | some t => return extend m t
    | none => return m

/-- A condition under a new id, as one of a model. -/
def renewCondition (model : String) (w : Condition) : Action Condition := do
  return { w with id := ← freshId, model := model }

/-- A condition as one of a model; it gets an id where it has none. -/
def adoptCondition (model : String) (w : Condition) : Action Condition := do
  if w.id = "" then renewCondition model w else return { w with model := model }

/-- A template stored under new ids. -/
def create (t : Template) : Action Template := do
  if t.model = "" then throw (.invalid "model_id" .absent)
  let id ← freshId
  let conditions ← t.conditions.mapM (renewCondition t.model)
  let t := { t with id := id, conditions := conditions }
  Metadata.saveTemplate t
  return t

def update (t : Template) : Action Template := do
  if (← Metadata.template? t.id).isNone then throw (.notFound (.template t.id))
  let conditions ← t.conditions.mapM (adoptCondition t.model)
  let t := { t with conditions := conditions }
  Metadata.saveTemplate t
  return t

/-- A template stored where its flag changes. -/
def saveFlag (id : String) (t : Template) : Action Unit := do
  let isDefault := t.id == id
  if t.isDefault != isDefault then Metadata.saveTemplate { t with isDefault := isDefault }

/-- A template of a model made its default, and no other one. -/
def setDefault (model id : String) : Action Unit := do
  let templates ← Metadata.templatesOf model
  if !templates.any (·.id == id) then throw (.notFound (.templateOfModel id model))
  templates.forM (saveFlag id)

/-- A copy of a template, which is not the default. -/
def duplicate (id : String) : Action Template := do
  match ← Metadata.template? id with
  | none => throw (.notFound (.template id))
  | some t => do
    let suffix ← freshId
    create { t with
      -- the copy is stored under an id of its own and is never the default
      id := ""
      name := t.name ++ " - Copy"
      code := t.code ++ "_copy_" ++ suffix
      isDefault := false }

end MetaQuery.Templates
