/-
  MetaQuery/Proofs/Store/Statements.lean
  ======================================
  The statements on the metadata tables.

  Each statement does one of eight things to the table of one kind (`Verb`).  Its text is made of
  words that depend on the verb alone, with the enclosed name of the table between them.  Enclosed
  names show where they end, so the text says which verb and which kind it is
  (`Verb.text_injective`), whatever the prefix of the tables is.
-/
import MetaQuery.Proofs.Session.Reading
import MetaQuery.Session.Metadata

namespace MetaQuery

/-! ### Enclosed names -/

/-- An enclosed name between words, of which those in front have no quotes, is read off the text. -/
theorem Dialect.quote_between_inj {d : Dialect} {front front' name name' behind behind' : String}
    (hfront : d.quoteChar ∉ front.toList) (hfront' : d.quoteChar ∉ front'.toList)
    (hbehind : behind.toList.head? ≠ some d.quoteChar)
    (hbehind' : behind'.toList.head? ≠ some d.quoteChar)
    (h : front ++ d.quote name ++ behind = front' ++ d.quote name' ++ behind') :
    front = front' ∧ name = name' ∧ behind = behind' := by
  have hlist : ∀ front name behind : String, (front ++ d.quote name ++ behind).toList =
      front.toList ++ d.quoteChar ::
        (Text.double d.quoteChar name.toList ++ d.quoteChar :: behind.toList) := by
    intro front name behind
    simp [quote, Text.enclose, String.toList_append]
  have hlists := congrArg String.toList h
  rw [hlist, hlist] at hlists
  obtain ⟨hsame, hrest⟩ := Text.append_cons_inj hfront hfront' hlists
  obtain ⟨hname, hlast⟩ := Text.double_append_inj hbehind hbehind' hrest
  exact ⟨String.toList_inj.1 hsame, String.toList_inj.1 hname, String.toList_inj.1 hlast⟩

/-! ### Verbs -/

namespace Tables

/-- What a statement does to a metadata table. -/
inductive Verb where
  /-- All rows are deleted. -/
  | clear
  /-- A row is inserted. -/
  | insert
  /-- All payloads are read. -/
  | all
  /-- The payloads under an id are read. -/
  | byId
  /-- The payloads of a model are read. -/
  | byModel
  /-- The position of the row under an id is read. -/
  | place
  /-- The rows are counted. -/
  | count
  /-- The row under an id is deleted. -/
  | remove
deriving DecidableEq, Repr

namespace Verb

def verbs : List Verb := [.clear, .insert, .all, .byId, .byModel, .place, .count, .remove]

theorem mem_verbs (v : Verb) : v ∈ verbs := by
  cases v <;> decide

/-- The words in front of the table. -/
def front : Verb → String
  | .clear => "DELETE FROM "
  | .insert => "INSERT INTO "
  | .all => "SELECT payload FROM "
  | .byId => "SELECT payload FROM "
  | .byModel => "SELECT payload FROM "
  | .place => "SELECT position FROM "
  | .count => "SELECT COUNT(*) FROM "
  | .remove => "DELETE FROM "

/-- The words behind the table. -/
def behind (d : Dialect) : Verb → String
  | .clear => ""
  | .insert => " (id, model_id, position, payload) VALUES (" ++ d.placeholder 1 ++ ", " ++
      d.placeholder 2 ++ ", " ++ d.placeholder 3 ++ ", " ++ d.placeholder 4 ++ ")"
  | .all => " ORDER BY position"
  | .byId => " WHERE id = " ++ d.placeholder 1 ++ " ORDER BY position"
  | .byModel => " WHERE model_id = " ++ d.placeholder 1 ++ " ORDER BY position"
  | .place => " WHERE id = " ++ d.placeholder 1
  | .count => ""
  | .remove => " WHERE id = " ++ d.placeholder 1

/-- The statement on the table of a kind. -/
def text (d : Dialect) (se : Settings) (kind : String) (v : Verb) : String :=
  v.front ++ d.quote (se.tableName kind) ++ v.behind d

variable {d : Dialect} {se : Settings}

theorem quoteChar_notMem_front (d : Dialect) (v : Verb) : d.quoteChar ∉ v.front.toList := by
  cases d <;> cases v <;> decide

theorem head?_behind_ne (d : Dialect) (v : Verb) :
    (v.behind d).toList.head? ≠ some d.quoteChar := by
  cases d <;> cases v <;> decide

theorem eq_of_words (d : Dialect) :
    ∀ v ∈ verbs, ∀ w ∈ verbs, v.front = w.front → v.behind d = w.behind d → v = w := by
  cases d <;> decide

/-- **A text says which verb it is, and of which kind the table is.** -/
theorem text_injective {v w : Verb} {kind kind' : String}
    (h : v.text d se kind = w.text d se kind') : v = w ∧ kind = kind' := by
  obtain ⟨hfront, hname, hbehind⟩ := Dialect.quote_between_inj (quoteChar_notMem_front d v)
    (quoteChar_notMem_front d w) (head?_behind_ne d v) (head?_behind_ne d w) h
  refine ⟨eq_of_words d v v.mem_verbs w w.mem_verbs hfront hbehind, ?_⟩
  exact (String.append_right_inj _).1 hname

end Verb

end Tables

end MetaQuery
