/-
  MetaQuery/Proofs/Service/DefaultStops.lean
  ==========================================
  Where making a template the default stops, with the metadata in tables.

  Each flag that changes is saved in a transaction of its own, in the order of the list.  So when
  something fails, the templates in front of the one that failed have their new flags, and all
  others have their old ones (`setDefault_stops`).  The flags are as before just when no save was
  committed; otherwise a model may be left with no default, or with two.
-/
import MetaQuery.Pattern.Reader
import MetaQuery.Proofs.Json.Characters
import MetaQuery.Proofs.Service.Defaults
import MetaQuery.Proofs.Store.Failing

namespace MetaQuery

open Tables

namespace Templates

open MetaQuery.Action

variable {d : Dialect} {se : Settings}

/-! ### Saves one after the other -/

/-- Rows before and after some templates are saved, one after the other. -/
inductive Saves : List StoredRow → List Template → List StoredRow → Prop where
  | nil (T : List StoredRow) : Saves T [] T
  | cons {T T' : List StoredRow} {t : Template} {rest : List Template} {place : Int64}
      (hplace : PlaceFor T t.id place) (hrest : Saves (withSaved T (t, place)) rest T') :
      Saves T (t :: rest) T'

/-- The templates that are saved for a new default, in the order of the list. -/
def changes (id : String) (ts : List Template) : List Template :=
  (ts.filter fun t => t.isDefault != (t.id == id)).map (·.flagged id)

/-- Some templates are saved, with one commit for each, and nothing else is made durable. -/
structure SavedInPart (K : Kept) (done : List Template) (n : Nat) (K' : Kept) : Prop where
  rows : ∃ T', Saves (K.durable "templates") done T' ∧
    K'.durable = Function.update K.durable "templates" T'
  commits : n = done.length

theorem savedInPart_nil {K K' : Kept} (h : K'.durable = K.durable) : SavedInPart K [] 0 K' :=
  ⟨⟨_, .nil _, by rw [h, Function.update_eq_self]⟩, rfl⟩

theorem SavedInPart.cons {K K₁ K' : Kept} {t : Template} {place : Int64} {done : List Template}
    {n : Nat} (hplace : PlaceFor (K.durable "templates") t.id place)
    (hfirst : K₁.durable = Function.update K.durable "templates"
      (withSaved (K.durable "templates") (t, place)))
    (h : SavedInPart K₁ done n K') : SavedInPart K (t :: done) (1 + n) K' := by
  obtain ⟨⟨T', hsaves, hdurable⟩, rfl⟩ := h
  rw [hfirst, Function.update_self] at hsaves
  rw [hfirst, Function.update_idem] at hdurable
  exact ⟨⟨T', .cons hplace hsaves, hdurable⟩, Nat.add_comm ..⟩

/-- Saves that are all done, or stop at one of them. -/
inductive SavedUpTo (K : Kept) (todo : List Template) :
    Except Fault Unit → Nat → Kept → Prop where
  | all {n : Nat} {K' : Kept} (h : SavedInPart K todo n K') : SavedUpTo K todo (.ok ()) n K'
  | stopped {done rest : List Template} {t : Template} {n : Nat} {K' : Kept} (e : Fault)
      (htodo : todo = done ++ t :: rest) (h : SavedInPart K done n K') :
      SavedUpTo K todo (.error e) n K'

theorem saveFlag_of_right {id : String} {t : Template} (h : t.isDefault = (t.id == id)) :
    saveFlag id t = pure () := by
  unfold saveFlag
  simp only [h, bne_self_eq_false]
  rfl

theorem saveFlag_of_wrong {id : String} {t : Template} (h : t.isDefault ≠ (t.id == id)) :
    saveFlag id t = Metadata.saveTemplate (t.flagged id) := by
  unfold saveFlag
  simp only [bne_iff_ne.2 h]
  rfl

theorem exec_templatesOf_of_tables {s : Session} (h : s.store = .tables d) (model : String) :
    (Metadata.templatesOf model).exec s =
      (loadWhere d Template.layout.coder "templates" "model_id" model).exec s :=
  Metadata.exec_ask_of_tables h

/-- **The saves for a new default are done in the order of the list, up to the one that fails.** -/
theorem saveFlags_leaves (d : Dialect) (se : Settings) (id : String) (ts : List Template)
    (K : Kept) :
    (ts.forM (saveFlag id)).Leaves d se K (SavedUpTo K (changes id ts)) := by
  induction ts generalizing K with
  | nil =>
    refine (leaves_of_still (r := .ok ()) (fun _ _ _ => rfl) K).mono ?_
    rintro r n K' ⟨rfl, rfl, rfl⟩
    exact .all (savedInPart_nil rfl)
  | cons t rest ih =>
    have hcons : (t :: rest).forM (saveFlag id) =
        saveFlag id t >>= fun _ => rest.forM (saveFlag id) := rfl
    rw [hcons]
    -- a template whose flag is right already is passed over without a statement
    by_cases hflag : t.isDefault = (t.id == id)
    · have hchanges : changes id (t :: rest) = changes id rest := by
        simp [changes, hflag]
      rw [saveFlag_of_right hflag, hchanges, pure_bind]
      exact ih K
    · have hchanges : changes id (t :: rest) = t.flagged id :: changes id rest := by
        simp [changes, hflag]
      have hsave : (Metadata.saveTemplate (t.flagged id)).Leaves d se K _ :=
        (saveTemplate_leaves d se (t.flagged id) K).congr fun s hstore =>
          Edit.exec_saveTemplate_of_tables hstore (t.flagged id)
      rw [saveFlag_of_wrong hflag, hchanges]
      refine hsave.bind (fun _ => (ih K).steady) ?_ ?_
      · rintro e n K' ⟨⟩
        next hkept => exact .stopped e rfl (savedInPart_nil hkept)
      -- saved and committed: what is left behind grows by this template, whatever follows
      · rintro ⟨⟩ n K₁ ⟨⟩
        next hsaved =>
        obtain ⟨place, hplace, hdurable⟩ := hsaved
        refine (ih K₁).mono ?_
        rintro r n K' (h | ⟨e, htodo, h⟩)
        · exact .all (h.cons hplace hdurable)
        · exact .stopped e (by rw [htodo]; rfl) (h.cons hplace hdurable)

/-- Where making a template the default stopped: behind some saves, which are those of the first
    templates of its model whose flags change. -/
structure StoppedBehind (model id : String) (K : Kept) (done : List Template) (n : Nat)
    (K' : Kept) : Prop where
  saved : SavedInPart K done n K'
  listed : done ≠ [] → ∃ L ts t rest,
    IsListing (·.model == model) (K.durable "templates") L ∧
    List.Forall₂ (StoredRow.Reads Template.layout.coder) L ts ∧
    changes id ts = done ++ t :: rest

theorem stoppedBehind_nil {model id : String} {K K' : Kept} (h : K'.durable = K.durable) :
    StoppedBehind model id K [] 0 K' := ⟨savedInPart_nil h, absurd rfl⟩

theorem setDefault_leaves (d : Dialect) (se : Settings) (model id : String) (K : Kept) :
    (setDefault model id).Leaves d se K fun r n K' =>
      ∀ e, r = .error e → ∃ done, StoppedBehind model id K done n K' := by
  have hlist : (Metadata.templatesOf model).Prepares d se K _ :=
    Leaves.congr (loadWhere_model_prepares "templates" model K) fun s hstore =>
      exec_templatesOf_of_tables hstore model
  -- whatever the listing answers, what is done with it meets the same answers
  have hsteady : ∀ ts : List Template, (if ts.any (·.id == id) then ts.forM (saveFlag id)
      else throw (.notFound (.templateOfModel id model))).SteadyOn d se := by
    intro ts
    split
    · exact (saveFlags_leaves d se id ts K).steady
    · exact (steady_throw _).on
  rw [setDefault_eq]
  refine Prepares.then hlist hsteady (fun e K' hkept _ _ => ⟨[], stoppedBehind_nil hkept⟩) ?_
  rintro ts K₁ hkept ⟨L, hL, hts⟩
  split
  · refine (saveFlags_leaves d se id ts K₁).mono ?_
    rintro r n K' (h | ⟨e, htodo, ⟨hrows, hcommits⟩⟩) e' he
    · cases he
    · rw [hkept] at hrows
      exact ⟨_, ⟨hrows, hcommits⟩, fun _ => ⟨L, ts, _, _, hL, hts, htodo⟩⟩
  · refine (leaves_of_still (fun _ _ _ => rfl) K₁).mono ?_
    rintro r n K' ⟨rfl, rfl, rfl⟩ e he
    exact ⟨[], stoppedBehind_nil hkept⟩

/-! ### Flags -/

/-- The id and the flag that the payload of a row shows. -/
def flagOf? (r : StoredRow) : Option (String × Bool) :=
  match Template.layout.coder.ofText r.payload with
  | .ok t => some (t.id, t.isDefault)
  | .error _ => none

/-- The flags of the templates in a table. -/
def flags (T : List StoredRow) : List (String × Bool) := T.filterMap flagOf?

/-- A flag, which is set anew when it is that of one of some ids. -/
def corrected (id : String) (ids : List String) (f : String × Bool) : String × Bool :=
  (f.1, if f.1 ∈ ids then f.1 == id else f.2)

/-- The rows have ids of their own, which are those of their templates. -/
structure Named (T : List StoredRow) : Prop where
  keys : (T.map (·.id)).Nodup
  named : ∀ r ∈ T, ∃ t, r.Reads Template.layout.coder t ∧ t.id = r.id

theorem flagOf?_of_reads {r : StoredRow} {t : Template}
    (h : r.Reads Template.layout.coder t) : flagOf? r = some (t.id, t.isDefault) := by
  rw [flagOf?, show Template.layout.coder.ofText r.payload = .ok t from h]

/-- Templates that are read again show their flags. -/
theorem flags_rows {S : Shelf}
    (h : ∀ u ∈ S, Template.layout.coder.ofText (Template.layout.coder.text u.1) = .ok u.1) :
    flags (S.map Shelf.row) = S.map fun u => (u.1.id, u.1.isDefault) := by
  induction S with
  | nil => rfl
  | cons u rest ih =>
    have hu : flagOf? (Shelf.row u) = some (u.1.id, u.1.isDefault) :=
      flagOf?_of_reads (h u List.mem_cons_self)
    rw [List.map_cons, flags, List.filterMap_cons_some hu, List.map_cons]
    exact congrArg _ (ih fun v hv => h v (List.mem_cons_of_mem u hv))

theorem Named.sublist {T T' : List StoredRow} (h : Named T) (hsub : T'.Sublist T) : Named T' where
  keys := List.Nodup.sublist (hsub.map _) h.keys
  named r hr := h.named r (hsub.mem hr)

theorem Named.mem_of_flag {T : List StoredRow} (h : Named T) {f : String × Bool}
    (hf : f ∈ flags T) : f.1 ∈ T.map (·.id) := by
  obtain ⟨r, hr, hflag⟩ := List.mem_filterMap.1 hf
  obtain ⟨t, ht, hid⟩ := h.named r hr
  rw [flagOf?_of_reads ht] at hflag
  obtain rfl := Option.some.inj hflag
  exact List.mem_map.2 ⟨r, hr, hid.symm⟩

/-- A template that is saved, as it is read again. -/
structure Corrects (id : String) (T : List StoredRow) (t : Template) : Prop where
  flag : t.isDefault = (t.id == id)
  readsBack : Template.layout.coder.ofText (Template.layout.coder.text t) = .ok t
  present : t.id ∈ T.map (·.id)

variable {id : String} {T T' : List StoredRow} {t : Template}

/-- A template that is stored takes the place of one row. -/
theorem Named.perm_others (hT : Named T) (h : t.id ∈ T.map (·.id)) :
    ∃ r, r.id = t.id ∧ T.Perm (r :: T.filter (·.id != t.id)) := by
  obtain ⟨r, hr, hid⟩ := List.mem_map.1 h
  have hsplit := List.filter_append_perm (·.id == r.id) T
  rw [filter_key hT.keys hr, hid] at hsplit
  exact ⟨r, hid, hsplit.symm⟩

theorem ids_withSaved (hT : Named T) (h : t.id ∈ T.map (·.id)) (place : Int64) :
    ((withSaved T (t, place)).map (·.id)).Perm (T.map (·.id)) := by
  obtain ⟨r, hid, hperm⟩ := hT.perm_others h
  have hids := hperm.map (·.id)
  rw [List.map_cons, hid] at hids
  rw [withSaved, List.map_append]
  exact (List.perm_append_singleton _ _).trans hids.symm

theorem Named.withSaved (hT : Named T) (h : Corrects id T t) (place : Int64) :
    Named (withSaved T (t, place)) where
  keys := (ids_withSaved hT h.present place).nodup_iff.2 hT.keys
  named r hr := by
    rcases List.mem_append.1 hr with hr | hr
    · exact hT.named r (List.mem_filter.1 hr).1
    · obtain rfl := List.mem_singleton.1 hr
      exact ⟨t, h.readsBack, rfl⟩

theorem flags_withSaved (hT : Named T) (h : Corrects id T t) (place : Int64) :
    (flags (Tables.withSaved T (t, place))).Perm ((flags T).map (corrected id [t.id])) := by
  obtain ⟨r, hid, hperm⟩ := hT.perm_others h.present
  obtain ⟨u, hu, huid⟩ := hT.named r (hperm.mem_iff.2 List.mem_cons_self)
  have hnew : flagOf? (Shelf.row (t, place)) = some (t.id, t.isDefault) :=
    flagOf?_of_reads h.readsBack
  have hold : flagOf? r = some (t.id, u.isDefault) := by
    rw [flagOf?_of_reads hu, huid, hid]
  -- the other rows show other ids, so their flags stay
  have hothers : (flags (T.filter (·.id != t.id))).map (corrected id [t.id]) =
      flags (T.filter (·.id != t.id)) := by
    rw [List.map_congr_left (g := fun f => f) fun f hf => ?_, List.map_id']
    have hmem := (hT.sublist List.filter_sublist).mem_of_flag hf
    obtain ⟨r', hr', hid'⟩ := List.mem_map.1 hmem
    have hne : f.1 ≠ t.id := by
      rw [← hid']
      exact bne_iff_ne.1 (List.mem_filter.1 hr').2
    simp [corrected, hne]
  have hflags : (flags T).Perm ((t.id, u.isDefault) :: flags (T.filter (·.id != t.id))) := by
    have hmap := hperm.filterMap flagOf?
    rwa [List.filterMap_cons_some hold] at hmap
  have hcorrected : corrected id [t.id] (t.id, u.isDefault) = (t.id, t.isDefault) := by
    simp [corrected, h.flag]
  calc flags (Tables.withSaved T (t, place))
      _ = flags (T.filter (·.id != t.id)) ++ [(t.id, t.isDefault)] := by
        rw [flags, Tables.withSaved, List.filterMap_append, List.filterMap_cons_some hnew]
        rfl
      _ |>.Perm ((t.id, t.isDefault) :: flags (T.filter (·.id != t.id))) :=
        List.perm_append_singleton _ _
      _ = ((t.id, u.isDefault) :: flags (T.filter (·.id != t.id))).map (corrected id [t.id]) := by
        rw [List.map_cons, hothers, hcorrected]
      _ |>.Perm ((flags T).map (corrected id [t.id])) := (hflags.map _).symm

/-- **Saves set the flags of what is saved, and no others.** -/
theorem flags_saves {done : List Template} (h : Saves T done T') (hT : Named T)
    (hdone : ∀ t ∈ done, Corrects id T t) :
    (flags T').Perm ((flags T).map (corrected id (done.map (·.id)))) := by
  induction h with
  | nil T =>
    have hsame : corrected id (([] : List Template).map (·.id)) = fun f => f := by
      funext f
      simp [corrected]
    rw [hsame, List.map_id']
  | @cons T T' t rest place hplace hrest ih =>
    have ht := hdone t List.mem_cons_self
    have hlater : ∀ u ∈ rest, Corrects id (Tables.withSaved T (t, place)) u := by
      intro u hu
      have hu' := hdone u (List.mem_cons_of_mem t hu)
      exact ⟨hu'.flag, hu'.readsBack, (ids_withSaved hT ht.present place).mem_iff.2 hu'.present⟩
    -- correcting one id and then the rest corrects all of them, in any order
    have hboth : corrected id (rest.map (·.id)) ∘ corrected id [t.id] =
        corrected id ((t :: rest).map (·.id)) := by
      funext f
      by_cases hf : f.1 ∈ rest.map (·.id)
      · simp [corrected, hf]
      · by_cases hid : f.1 = t.id
        · simp [corrected, hid]
        · simp [corrected, hf, hid]
    refine (ih (hT.withSaved ht place) hlater).trans ?_
    rw [← hboth, ← List.map_map]
    exact (flags_withSaved hT ht place).map _

/-- Tables that are kept well: rows have ids of their own, which are those of their templates, and
    a template that is written with its new flag is read again. -/
structure WellKept (id : String) (T : List StoredRow) : Prop extends Named T where
  readsBack : ∀ r ∈ T, ∀ t, r.Reads Template.layout.coder t →
    Template.layout.coder.ofText (Template.layout.coder.text (t.flagged id)) = .ok (t.flagged id)

/-- What is saved is a stored template whose flag was wrong. -/
theorem exists_of_mem_changes {model : String} {L : List StoredRow} {ts : List Template}
    (hL : IsListing (·.model == model) T L)
    (hts : List.Forall₂ (StoredRow.Reads Template.layout.coder) L ts) (h : t ∈ changes id ts) :
    ∃ r ∈ T, ∃ u, r.Reads Template.layout.coder u ∧ u.isDefault ≠ (u.id == id) ∧
      t = u.flagged id := by
  obtain ⟨u, hu, rfl⟩ := List.mem_map.1 h
  obtain ⟨hu, hwrong⟩ := List.mem_filter.1 hu
  obtain ⟨r, hr, hread⟩ := exists_row_of_reads hts hu
  exact ⟨r, (List.mem_filter.1 (hL.perm.mem_iff.1 hr)).1, u, hread, bne_iff_ne.1 hwrong, rfl⟩

theorem WellKept.corrects (hT : WellKept id T) {r : StoredRow} (hr : r ∈ T)
    (hread : r.Reads Template.layout.coder t) : Corrects id T (t.flagged id) where
  flag := rfl
  readsBack := hT.readsBack r hr t hread
  present := by
    obtain ⟨u, hu, hid⟩ := hT.named r hr
    obtain rfl := hread.unique hu
    exact List.mem_map.2 ⟨r, hr, hid.symm⟩

/-- The first save that is committed shows. -/
theorem flags_changed {done : List Template} (h : Saves T done T') (hT : Named T)
    (hdone : ∀ t ∈ done, Corrects id T t) {r : StoredRow} (hr : r ∈ T)
    (hread : r.Reads Template.layout.coder t) (hwrong : t.isDefault ≠ (t.id == id))
    (hsaved : t.id ∈ done.map (·.id)) : ¬ (flags T').Perm (flags T) := by
  intro hsame
  have hold : (t.id, t.isDefault) ∈ flags T :=
    List.mem_filterMap.2 ⟨r, hr, flagOf?_of_reads hread⟩
  obtain ⟨f, -, hf⟩ := List.mem_map.1
    (((hsame.symm.trans (flags_saves h hT hdone)).mem_iff).1 hold)
  obtain ⟨hid, hflag⟩ := Prod.mk.inj hf
  rw [hid, if_pos hsaved] at hflag
  exact hwrong hflag.symm

theorem SavedInPart.durable_eq {K K' : Kept} {n : Nat} (h : SavedInPart K [] n K') :
    K'.durable = K.durable := by
  obtain ⟨T', hsaves, hdurable⟩ := h.rows
  cases hsaves
  rw [hdurable, Function.update_eq_self]

/-- **Where making a template the default stops.**  Whatever the tables hold and whatever fails,
    what is durable are the saves of the first templates whose flags change, one commit for each.
    When none was committed, nothing has changed.  In tables that are kept well, the flags are
    those from before with those of the saved templates set, so they are as they were just when no
    save was committed. -/
theorem setDefault_stops {s t : Session} (hstore : s.store = .tables d) {model id : String}
    {e : Fault} (hrun : (setDefault model id).exec s = (.error e, t)) {log : List Event}
    (hlog : t.events = s.events ++ log) {K K' : Kept} (h : Undergoes d s.settings K log K') :
    ∃ done, StoppedBehind model id K done (commits log) K' ∧
      (.committed .metadata none ∉ log → K'.durable = K.durable) ∧
      (WellKept id (K.durable "templates") →
        (flags (K'.durable "templates")).Perm
          ((flags (K.durable "templates")).map (corrected id (done.map (·.id)))) ∧
        ((flags (K'.durable "templates")).Perm (flags (K.durable "templates")) ↔
          .committed .metadata none ∉ log)) := by
  have hleft := (setDefault_leaves d s.settings model id K).left s log K' hstore rfl
    (by rw [hrun]; exact hlog) h
  rw [hrun] at hleft
  obtain ⟨done, hdone⟩ := hleft e rfl
  -- one commit for each template that was saved
  have hcount : .committed .metadata none ∉ log ↔ done = [] := by
    rw [← List.count_eq_zero, ← List.length_eq_zero_iff, ← hdone.saved.commits]
    rfl
  have hkept : .committed .metadata none ∉ log → K'.durable = K.durable := by
    intro hopen
    obtain rfl := hcount.1 hopen
    exact hdone.saved.durable_eq
  refine ⟨done, hdone, hkept, fun hT => ?_⟩
  -- what was saved are listed templates with the flag turned, in the order of the listing
  have hsource : ∀ u ∈ done, ∃ r ∈ K.durable "templates", ∃ v,
      r.Reads Template.layout.coder v ∧ v.isDefault ≠ (v.id == id) ∧ u = v.flagged id := by
    intro u hu
    obtain ⟨L, ts, next, rest, hL, hts, hchanges⟩ := hdone.listed (List.ne_nil_of_mem hu)
    refine exists_of_mem_changes hL hts ?_
    rw [hchanges]
    exact List.mem_append_left _ hu
  have hcorrects : ∀ u ∈ done, Corrects id (K.durable "templates") u := by
    intro u hu
    obtain ⟨r, hr, v, hread, -, rfl⟩ := hsource u hu
    exact hT.corrects hr hread
  obtain ⟨T', hsaves, hdurable⟩ := hdone.saved.rows
  have hrows : K'.durable "templates" = T' := by rw [hdurable, Function.update_self]
  refine ⟨hrows ▸ flags_saves hsaves hT.toNamed hcorrects, fun hsame => ?_, fun hopen => ?_⟩
  · refine hcount.2 (List.eq_nil_iff_forall_not_mem.2 fun u hu => ?_)
    obtain ⟨r, hr, v, hread, hwrong, rfl⟩ := hsource u hu
    rw [hrows] at hsame
    exact flags_changed hsaves hT.toNamed hcorrects hr hread hwrong
      (List.mem_map.2 ⟨_, hu, rfl⟩) hsame
  · rw [hkept hopen]

/-- The default of the notes. -/
def oldDefault : Template := { id := "a", model := "note", isDefault := true }

def newDefault : Template := { id := "b", model := "note" }

/-- What the table answers about the two templates, in one order or the other; the save of the
    second one fails. -/
def halfwayReplies (first second : Template) : List Reply := [
  .rows [[("payload", .text (Template.layout.coder.text first))],
    [("payload", .text (Template.layout.coder.text second))]] 0,
  .rows [[("position", .bigInt 0)]] 0, .rows [] 1, .rows [] 1, .failure diskFull]

def halfwaySession (first second : Template) : Session where
  store := .tables .ansi
  rules := Pattern.read
  idAt := fun _ => ""
  answers := ⟨halfwayReplies first second, []⟩

def halfwayLog (first second : Template) : List Event := [
  .executed .metadata false (Verb.byModel.text .ansi {} "templates") [.text "note"]
    (.rows [[("payload", .text (Template.layout.coder.text first))],
      [("payload", .text (Template.layout.coder.text second))]] 0),
  .began .metadata none,
  .executed .metadata true (Verb.place.text .ansi {} "templates") [.text first.id]
    (.rows [[("position", .bigInt 0)]] 0),
  .executed .metadata true (Verb.remove.text .ansi {} "templates") [.text first.id] (.rows [] 1),
  .executed .metadata true (Verb.insert.text .ansi {} "templates")
    (Shelf.row (first.flagged "b", 0)).cells (.rows [] 1),
  .committed .metadata none,
  .began .metadata none,
  .executed .metadata true (Verb.place.text .ansi {} "templates") [.text second.id]
    (.failure diskFull)]

/-- The two templates in the table, in their order. -/
def halfwayRows (first second : Template) : List StoredRow :=
  [Shelf.row (first, 0), Shelf.row (second, 1)]

def halfwayHoldings (first second : Template) : Holdings :=
  fun kind => if kind = "templates" then halfwayRows first second else []

def halfwayKept (first second : Template) : Kept :=
  ⟨halfwayHoldings first second, halfwayHoldings first second⟩

/-- The second template as it was, and the first one with its new flag. -/
def halfwayLeft (first second : Template) : List StoredRow :=
  [Shelf.row (second, 1), Shelf.row (first.flagged "b", 0)]

theorem halfway_undergoes (first second : Template) (hfirst : first.model = "note")
    (hsecond : second.model = "note") (hids : second.id ≠ first.id) :
    ∃ K', Undergoes .ansi {} (halfwayKept first second) (halfwayLog first second) K' ∧
      K'.durable "templates" = halfwayLeft first second := by
  have hlisting : IsListing (·.model == "note") (halfwayRows first second)
      (halfwayRows first second) := by
    refine ⟨?_, .cons (by simp [Shelf.row]) (.cons (by simp) .nil)⟩
    rw [List.filter_eq_self.2]
    simp [halfwayRows, Shelf.row, hfirst, hsecond]
  have hread : FirstCells SourceCell.asText
      [[("payload", .text (Template.layout.coder.text first))],
        [("payload", .text (Template.layout.coder.text second))]]
      ((halfwayRows first second).map (·.payload)) := .cons rfl (.cons rfl .nil)
  have hplaced : Tables.Answers .place [.text first.id] (halfwayRows first second)
      (.rows [[("position", .bigInt 0)]] 0) (halfwayRows first second) := by
    have hone : (halfwayRows first second).filter (·.id == first.id) =
        [Shelf.row (first, 0)] := by
      simp [halfwayRows, Shelf.row, hids]
    have hrows : FirstCells SourceCell.asInteger [[("position", .bigInt 0)]]
        ([Shelf.row (first, 0)].map (·.position)) := .cons rfl .nil
    exact .place 0 (.of_eq hone.symm) hrows
  have hremoved : Tables.Answers .remove [.text first.id] (halfwayRows first second) (.rows [] 1)
      [Shelf.row (second, 1)] := by
    have hanswer := Tables.Answers.remove (halfwayRows first second) first.id
    simpa [halfwayRows, Shelf.row, hids] using hanswer
  -- the row of the first template is out of the way when it is written again
  have hfree : (Shelf.row (first.flagged "b", 0)).id ∉ [Shelf.row (second, 1)].map (·.id) := by
    simpa [Shelf.row, Template.flagged] using hids.symm
  refine ⟨_, .served (.executed (.read 0 (.byModel "note") hlisting hread)) <|
    .served (.began _) <| .served (.executed hplaced) <| .served (.executed hremoved) <|
    .served (.executed (.inserted hfree)) <| .served (.committed _) <| .served (.began _) <|
    .failed rfl rfl (.nil _), ?_⟩
  rfl

theorem exec_halfway :
    ((setDefault "note" "b").exec (halfwaySession oldDefault newDefault)).1 =
      .error (.database diskFull) ∧
    ((setDefault "note" "b").exec (halfwaySession oldDefault newDefault)).2.events =
      halfwayLog oldDefault newDefault ∧
    ((setDefault "note" "b").exec (halfwaySession newDefault oldDefault)).1 =
      .error (.database diskFull) ∧
    ((setDefault "note" "b").exec (halfwaySession newDefault oldDefault)).2.events =
      halfwayLog newDefault oldDefault := by
  decide +kernel

theorem halfway_reads :
    Template.layout.coder.ofText (Template.layout.coder.text oldDefault) = .ok oldDefault ∧
    Template.layout.coder.ofText (Template.layout.coder.text newDefault) = .ok newDefault ∧
    Template.layout.coder.ofText (Template.layout.coder.text (oldDefault.flagged "b")) =
      .ok (oldDefault.flagged "b") ∧
    Template.layout.coder.ofText (Template.layout.coder.text (newDefault.flagged "b")) =
      .ok (newDefault.flagged "b") := by
  simp only [Json.Coder.ofText_text]
  decide +kernel

theorem halfway_wellKept : WellKept "b" (halfwayRows oldDefault newDefault) where
  keys := by decide
  named := by
    intro r hr
    rcases List.mem_cons.1 hr with rfl | hr
    · exact ⟨oldDefault, halfway_reads.1, rfl⟩
    · obtain rfl := List.mem_singleton.1 hr
      exact ⟨newDefault, halfway_reads.2.1, rfl⟩
  readsBack := by
    intro r hr t ht
    rcases List.mem_cons.1 hr with rfl | hr
    · obtain rfl : t = oldDefault := ht.unique halfway_reads.1
      exact halfway_reads.2.2.1
    · obtain rfl := List.mem_singleton.1 hr
      obtain rfl : t = newDefault := ht.unique halfway_reads.2.1
      exact halfway_reads.2.2.2

theorem halfway_stopped :
    ∃ t K', (halfwaySession oldDefault newDefault).store = .tables .ansi ∧
      (setDefault "note" "b").exec (halfwaySession oldDefault newDefault) =
        (.error (.database diskFull), t) ∧
      t.events = (halfwaySession oldDefault newDefault).events ++
        halfwayLog oldDefault newDefault ∧
      Undergoes .ansi {} (halfwayKept oldDefault newDefault)
        (halfwayLog oldDefault newDefault) K' ∧
      WellKept "b" (halfwayRows oldDefault newDefault) ∧
      ∃ done, StoppedBehind "note" "b" (halfwayKept oldDefault newDefault) done
          (commits (halfwayLog oldDefault newDefault)) K' ∧
        (.committed .metadata none ∉ halfwayLog oldDefault newDefault →
          K'.durable = (halfwayKept oldDefault newDefault).durable) ∧
        (WellKept "b" (halfwayRows oldDefault newDefault) →
          (flags (K'.durable "templates")).Perm
            ((flags (halfwayRows oldDefault newDefault)).map
              (corrected "b" (done.map (·.id)))) ∧
          ((flags (K'.durable "templates")).Perm (flags (halfwayRows oldDefault newDefault)) ↔
            .committed .metadata none ∉ halfwayLog oldDefault newDefault)) := by
  obtain ⟨hout, hlog, -, -⟩ := exec_halfway
  obtain ⟨K', hunder, -⟩ := halfway_undergoes oldDefault newDefault rfl rfl (by decide)
  have hstore : (halfwaySession oldDefault newDefault).store = .tables .ansi := rfl
  have hempty : (halfwaySession oldDefault newDefault).events = [] := rfl
  rcases hrun : (setDefault "note" "b").exec (halfwaySession oldDefault newDefault) with ⟨r, t⟩
  rw [hrun] at hout hlog
  obtain rfl : r = .error (.database diskFull) := hout
  have hevents : t.events = (halfwaySession oldDefault newDefault).events ++
      halfwayLog oldDefault newDefault := by
    rw [hempty, List.nil_append]
    exact hlog
  exact ⟨t, K', hstore, rfl, hevents, hunder, halfway_wellKept,
    setDefault_stops hstore hrun hevents hunder⟩

/-- When the save of the second template fails, the notes are left with no default, or with two:
    it depends on which template comes first. -/
theorem default_lost_or_doubled :
    (((setDefault "note" "b").exec (halfwaySession oldDefault newDefault)).1 =
        .error (.database diskFull) ∧
      ((setDefault "note" "b").exec (halfwaySession oldDefault newDefault)).2.events =
        halfwayLog oldDefault newDefault ∧
      ∃ K', Undergoes .ansi {} (halfwayKept oldDefault newDefault)
          (halfwayLog oldDefault newDefault) K' ∧
        flags (halfwayRows oldDefault newDefault) = [("a", true), ("b", false)] ∧
        flags (K'.durable "templates") = [("b", false), ("a", false)]) ∧
    (((setDefault "note" "b").exec (halfwaySession newDefault oldDefault)).1 =
        .error (.database diskFull) ∧
      ((setDefault "note" "b").exec (halfwaySession newDefault oldDefault)).2.events =
        halfwayLog newDefault oldDefault ∧
      ∃ K', Undergoes .ansi {} (halfwayKept newDefault oldDefault)
          (halfwayLog newDefault oldDefault) K' ∧
        flags (halfwayRows newDefault oldDefault) = [("b", false), ("a", true)] ∧
        flags (K'.durable "templates") = [("a", true), ("b", true)]) := by
  obtain ⟨hout, hlog, hout', hlog'⟩ := exec_halfway
  obtain ⟨K, hunder, hleft⟩ := halfway_undergoes oldDefault newDefault rfl rfl (by decide)
  obtain ⟨K', hunder', hleft'⟩ := halfway_undergoes newDefault oldDefault rfl rfl (by decide)
  obtain ⟨hold, hnew, holdAfter, hnewAfter⟩ := halfway_reads
  -- the old default is saved first, or the new one is
  refine ⟨⟨hout, hlog, K, hunder, ?_, ?_⟩, hout', hlog', K', hunder', ?_, ?_⟩
  · exact flags_rows (S := [(oldDefault, 0), (newDefault, 1)]) (by simp [hold, hnew])
  · rw [hleft]
    exact flags_rows (S := [(newDefault, 1), (oldDefault.flagged "b", 0)])
      (by simp [hnew, holdAfter])
  · exact flags_rows (S := [(newDefault, 0), (oldDefault, 1)]) (by simp [hold, hnew])
  · rw [hleft']
    exact flags_rows (S := [(oldDefault, 1), (newDefault.flagged "b", 0)])
      (by simp [hold, hnewAfter])

end Templates

end MetaQuery
