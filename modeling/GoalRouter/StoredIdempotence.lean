import GoalRouter.StoredState

namespace GoalRouter
open Library
set_option autoImplicit true

theorem persistFields_idem {fields : Fields}
    (h : ∀ e ∈ fields, persistJson (persistJson e.2) = persistJson e.2) :
    persistFields (persistFields fields) = persistFields fields := by
  have hm : (persistFields fields).map (fun e => (e.1, persistMember e.1 e.2)) =
      persistFields fields := by
    conv => rhs; rw [← List.map_id (persistFields fields)]
    apply List.map_congr_left
    intro e he
    obtain ⟨k, hk, hj⟩ := Json.mem_reloadKeys he
    obtain ⟨d, hd, hv⟩ := List.mem_map.1 hk
    obtain ⟨rfl, hd2⟩ := Prod.mk.inj hv
    have hs : isSecretKey e.1 = isSecretKey d.1 := by rw [hj, isSecretKey_join]
    have hp : persistMember e.1 e.2 = e.2 := by
      rw [← hd2, persistMember, hs, persistMember]
      cases isSecretKey d.1 with
      | true => rfl
      | false => exact h d hd
    rw [hp]
    rfl
  rw [persistFields, hm]
  exact Json.reloadKeys_idem _

@[simp] theorem persistJson_idem (j : Json) : persistJson (persistJson j) = persistJson j := by
  induction j using Json.induct with
  | null | bool | int => rfl
  | float x =>
    have h (y : PyFloat) : persistJson (.float y) = .float (persistFloat y) := rfl
    rw [h, h, persistFloat_idem]
  | str t => simp only [persistJson_str, persistText_idem]
  | arr xs ih =>
    simp only [persistJson_arr, List.map_map]
    exact congrArg _ (List.map_congr_left ih)
  | obj fields ih => rw [persistJson_obj, persistJson_obj, persistFields_idem ih]

@[simp] theorem persistPath_text (p : PurePath) : (persistPath p).text = persistText p.text := by
  by_cases h : isSecretValue p.text = true
  · have hp : persistText p.text = redacted := by
      rw [persistText, redactText, if_pos h, joined_redacted]
    rw [persistPath, hp]
    decide
  · have hp : persistText p.text = joinSurrogates p.text := by
      rw [persistText, redactText, if_neg h]
    rw [persistPath, hp, PurePath.ofText_joinSurrogates]

@[simp] theorem persistPath_idem (p : PurePath) : persistPath (persistPath p) = persistPath p := by
  rw [persistPath, persistPath_text, persistText_idem]
  rfl

theorem map_idem {f : α → α} (h : ∀ x, f (f x) = f x) (xs : List α) :
    (xs.map f).map f = xs.map f := by
  rw [List.map_map]
  exact List.map_congr_left fun x _ => h x

theorem optionMap_idem {f : α → α} (h : ∀ x, f (f x) = f x) (x : Option α) :
    (x.map f).map f = x.map f := by
  cases x with
  | none => rfl
  | some x => exact congrArg some (h x)

theorem TextSet.ofTexts_keys (m : TextSet) : TextSet.ofTexts m.keys = m := by
  have he : m.keys.map (·, ()) = m.entries := by
    rw [SortedMap.keys, List.map_map]
    exact List.map_id _
  rw [TextSet.ofTexts, he, SortedMap.ofList_entries]

theorem TextSet.mem_of_mem_ofTexts {ts : List Text} {t : Text} (h : t ∈ (ofTexts ts).keys) :
    t ∈ ts := by
  obtain ⟨e, he, rfl⟩ := List.mem_map.1 h
  obtain ⟨u, hu, rfl⟩ := List.mem_map.1 (SortedMap.mem_of_mem_ofList he)
  exact hu

theorem TextSet.persist_idem (ts : List Text) :
    ofTexts ((ofTexts (ts.map persistText)).keys.map persistText) =
      ofTexts (ts.map persistText) := by
  have hm : (ofTexts (ts.map persistText)).keys.map persistText =
      (ofTexts (ts.map persistText)).keys := by
    conv => rhs; rw [← List.map_id (ofTexts (ts.map persistText)).keys]
    apply List.map_congr_left
    intro t ht
    obtain ⟨u, _, rfl⟩ := List.mem_map.1 (mem_of_mem_ofTexts ht)
    exact persistText_idem u
  rw [hm, TextSet.ofTexts_keys]

@[simp] theorem WorkItem.persisted_idem (i : WorkItem) : i.persisted.persisted = i.persisted := by
  simp only [persisted, persistText_idem, map_idem persistText_idem, map_idem persistPath_idem,
    persistFloat_idem, TextSet.persist_idem]

@[simp] theorem RouteDecision.persisted_idem (r : RouteDecision) :
    r.persisted.persisted = r.persisted := by
  simp only [persisted, persistText_idem, optionMap_idem persistText_idem]

@[simp] theorem WorkResult.persisted_idem (r : WorkResult) :
    r.persisted.persisted = r.persisted := by
  simp only [persisted, persistText_idem, optionMap_idem persistText_idem,
    map_idem persistText_idem, map_idem persistPath_idem, map_idem persistJson_idem,
    persistFloat_idem]

@[simp] theorem ApprovalRecord.persisted_idem (r : ApprovalRecord) :
    r.persisted.persisted = r.persisted := by
  simp only [persisted, persistText_idem]

end GoalRouter
