import Api2Mcp.Store.Definitions

namespace api2mcp.store

open concurrent
open api2mcp.entity

/-- What a statement of a definition write does to the rows: nothing, or the
commit of a write that is `ok`. -/
def Commits (ok : Write → Prop) (l : Stmt) (write : Db → Db) : Prop :=
  match l with
  | .commit w => ok w ∧ ∃ generation, ∀ db, write db = (Db.commit w generation db).2
  | _ => ∀ db, (write db).rows = db.rows

/-- What a commit leaves of the rows: what the write makes of them, or all if
it was refused. -/
theorem commit_rows (write : Write) (generation : Nat) (db : Db) :
    (Db.commit write generation db).2.rows =
      match write.apply db.rows with
      | .ok rows => rows
      | .error _ => db.rows := by
  unfold Db.commit
  split <;> simp_all

section

variable {ok : Write → Prop}

/-- Either the statement commits nothing, and the rows are as they were, or it
commits a write. -/
theorem Commits.cases {l : Stmt} {write : Db → Db} (h : Commits ok l write) (db : Db) :
    ((write db).rows = db.rows ∧ ∀ w rows, l = .commit w → w.apply db.rows ≠ .ok rows) ∨
      ∃ w rows, ok w ∧ l = .commit w ∧ w.apply db.rows = .ok rows ∧ (write db).rows = rows := by
  unfold Commits at h
  split at h
  · rename_i w
    obtain ⟨hok, generation, hwrite⟩ := h
    rw [hwrite, commit_rows]
    cases happly : w.apply db.rows with
    | ok rows => exact .inr ⟨w, rows, hok, rfl, happly, rfl⟩
    | error e =>
      refine .inl ⟨rfl, fun w' rows heq => ?_⟩
      cases heq
      simp [happly]
  · rename_i hother
    exact .inl ⟨h db, fun w _ heq => absurd heq (hother w)⟩

theorem Commits.mono {ok' : Write → Prop} (hok : ∀ w, ok w → ok' w) {l : Stmt} {write : Db → Db}
    (h : Commits ok l write) : Commits ok' l write := by
  unfold Commits at h ⊢
  split at h
  · exact ⟨hok _ h.1, h.2⟩
  · exact h

theorem commits_fetch_bind {α β : Type} {q : Fetch α} {f : Except StoreError α → DbTask β}
    (hf : ∀ a, q.run.Sees (fun _ => True) a → (f a).All (Commits ok)) :
    (fetch q >>= f).All (Commits ok) :=
  Query.all_task_bind (fun _ => rfl) Db.rows hf

theorem commits_bump_generation_in : meta_store.bump_generation_in.All (Commits ok) := by
  refine (Task.all_read (fun _ => rfl) _).bind fun read =>
    (Task.all_read (fun _ => rfl) _).bind fun found => ?_
  split
  · exact .stmt (fun _ => rfl) fun _ => .done _
  · refine .stmt (fun db => ?_) fun _ => .done _
    dsimp only
    split <;> rfl

theorem commits_transact {write : Write} (hok : ok write) : (transact write).All (Commits ok) := by
  refine commits_bump_generation_in.bind fun next => ?_
  cases next with
  | error e => exact .done _
  | ok generation => exact Task.all_exec ⟨hok, generation, fun _ => rfl⟩

/-- A store method commits what its reads let it decide on. -/
theorem commits_write_after {q : Fetch Write}
    (hok : ∀ write, Query.Yields (fun _ => True) q write → ok write) :
    (write_after q).All (Commits ok) := by
  refine commits_fetch_bind fun answer hsees => ?_
  cases answer with
  | error e => exact .done _
  | ok write => exact commits_transact (hok write hsees)

end

end api2mcp.store

namespace api2mcp.store

open btree concurrent
open api2mcp.model api2mcp.entity

/-! What each store method writes, when its reads let it. -/

variable {P : Rows → Prop} {write : Write}

/-- A method that refuses what is there already. -/
theorem yields_unless {found : Bool} {e : StoreError} {q : Fetch Write}
    (h : Query.Yields P (if found then do throw e; q else q) write) :
    found = false ∧ Query.Yields P q write := by
  cases found with
  | false => exact ⟨rfl, h⟩
  | true =>
    rw [if_pos rfl, Query.yields_bind] at h
    obtain ⟨_, h, _⟩ := h
    exact absurd h Query.yields_throw

/-- A method that looks up what it is to write about. -/
theorem yields_return {α : Type} {q : Fetch α} {f : α → Write}
    (h : Query.Yields P (q >>= fun a => return f a) write) : ∃ a, write = f a := by
  rw [Query.yields_bind] at h
  obtain ⟨a, _, h⟩ := h
  exact ⟨a, (Query.yields_pure.mp h).symm⟩

namespace service

theorem create_yields {service : Service} {id : Uuid}
    (h : Query.Yields P (create service id) write) : write = .create_service service id := by
  rw [create, Query.yields_bind] at h
  obtain ⟨_, _, h⟩ := h
  exact (Query.yields_pure.mp (yields_unless h).2).symm

theorem update_yields {service : Service} (h : Query.Yields P (update service) write) :
    ∃ id, write = .update_service service id :=
  yields_return h

theorem remove_yields {owner_id : Uuid} {slug : Slug}
    (h : Query.Yields P (remove owner_id slug) write) : ∃ id, write = .delete_service id :=
  yields_return h

end service

namespace api_call

theorem create_yields {tag_id : Tag → Uuid} {call : ApiCall} {tags : BTreeSet Tag} {id : Uuid}
    (h : Query.Yields P (create tag_id call tags id) write) :
    ∃ service_id, write = .create_api_call tag_id call tags id service_id := by
  rw [create, Query.yields_bind] at h
  obtain ⟨_, _, h⟩ := h
  exact yields_return (yields_unless h).2

theorem update_yields {tag_id : Tag → Uuid} {call : ApiCall} {tags : BTreeSet Tag}
    (h : Query.Yields P (update tag_id call tags) write) :
    ∃ id service_id, write = .update_api_call tag_id call tags id service_id := by
  rw [update, Query.yields_bind] at h
  obtain ⟨id, _, h⟩ := h
  exact ⟨id, yields_return h⟩

theorem remove_yields {owner_id : Uuid} {service_slug slug : Slug}
    (h : Query.Yields P (remove owner_id service_slug slug) write) :
    ∃ id, write = .delete_api_call id :=
  yields_return h

end api_call

namespace script

theorem create_yields {tag_id : Tag → Uuid} {script : ScriptDef} {tags : BTreeSet Tag} {id : Uuid}
    (h : Query.Yields P (create tag_id script tags id) write) :
    write = .create_script tag_id script tags id := by
  rw [create, Query.yields_bind] at h
  obtain ⟨_, _, h⟩ := h
  exact (Query.yields_pure.mp (yields_unless h).2).symm

theorem update_yields {tag_id : Tag → Uuid} {script : ScriptDef} {tags : BTreeSet Tag}
    (h : Query.Yields P (update tag_id script tags) write) :
    ∃ id, write = .update_script tag_id script tags id :=
  yields_return h

theorem remove_yields {owner_id : Uuid} {slug : Slug}
    (h : Query.Yields P (remove owner_id slug) write) : ∃ id, write = .delete_script id :=
  yields_return h

end script

namespace endpoint

theorem create_yields {endpoint : EndpointDef} {id : Uuid}
    (h : Query.Yields P (create endpoint id) write) : write = .create_endpoint endpoint id := by
  rw [create, Query.yields_bind] at h
  obtain ⟨_, _, h⟩ := h
  exact (Query.yields_pure.mp (yields_unless h).2).symm

theorem update_yields {endpoint : EndpointDef} (h : Query.Yields P (update endpoint) write) :
    ∃ id, write = .update_endpoint endpoint id :=
  yields_return h

theorem remove_yields {owner_id : Uuid} {slug : Slug}
    (h : Query.Yields P (remove owner_id slug) write) : ∃ id, write = .delete_endpoint id :=
  yields_return h

end endpoint

end api2mcp.store
