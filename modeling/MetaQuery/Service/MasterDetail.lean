/-
  MetaQuery/Service/MasterDetail.lean
  ===================================
  A master row and its details, created in one transaction.  The details get the master's key in
  their foreign key column, so the master must bring its key.
-/
import MetaQuery.Service.Rows

namespace MetaQuery.MasterDetail

/-- A master row and its details. -/
structure Payload where
  master : Record
  details : List Record := []
deriving DecidableEq, Repr, Inhabited

def Payload.layout : Json.Layout Payload where
  name := "MasterDetailPayload"
  blank := ⟨.empty, []⟩
  columns := [
    .must "master" Record.coder (·.master) fun a r => { r with master := a },
    .may "details" (Json.listCoder Record.coder) (·.details) fun a r => { r with details := a }]

def masterKey (keyField : String) (master : Record) : Except Fault Cell :=
  match (master.get? keyField).filter (!·.isBlank) with
  | some key => .ok key
  | none => .error (.transaction (.noMasterKey keyField))

/-- Both inserts, in the transaction on a connection. -/
def insertBoth (connection master detail keyField foreignKey : String) (payload : Payload) :
    Action Record := do
  let created ← Rows.createIn connection master payload.master
  let key ← Action.ofExcept (masterKey keyField created)
  let _ ← Rows.createAllIn connection detail (payload.details.map (·.set foreignKey key))
  return created

/-- The relation between two models, which has a foreign key. -/
def relation (master detail : String) : Action Relation := do
  match ← Metadata.relation? master detail with
  | none => throw (.metadata (.missingRelation master detail))
  | some r =>
    if r.foreignKey = "" then throw (.metadata (.namedRelationWithoutKey r.id)) else return r

/-- A master row created with its details. -/
def create (master detail : String) (payload : Payload) : Action Record := do
  let r ← relation master detail
  let m ← Metadata.model master
  let _ ← Metadata.model detail
  Connection.transaction m.connection
    (insertBoth m.connection master detail m.key r.foreignKey payload)

end MetaQuery.MasterDetail
