import FeedsService.Rpc.Acceptance
import FeedsService.Rpc.Listener

/-!
# Requests that are handed on

Which requests `rpc.c` makes of the messages it survives, and what the
listeners find in them: the method as a C string, but for `update_user_info`,
and the strings that the parser has checked or followed.
-/

namespace FeedsService.Rpc

open FeedsService.Library

theorem zero_mem_pieceOf {text : Sized} (hshort : Short (some text)) : 0 ∈ pieceOf text := by
  have hlength : text.val.length + 1 < 2 ^ 32 := hshort text rfl
  have hle := length_cString_le text.val
  have hroom : strReserveSpc (some text) - (cString text.val).length ≠ 0 := by
    rw [strReserveSpc, Nat.mod_eq_of_lt hlength]
    omega
  exact List.mem_append_right _ (List.mem_replicate.mpr ⟨hroom, rfl⟩)

section Unmarshal

variable {message : Object} {entry : ReqParser} {req : Req}

theorem Requests.mem_tables (h : Requests message entry req) :
    entry ∈ reqParsers10 ∨ entry ∈ reqParsers20 := by
  cases h with
  | mk henvelope hversion hmethod hselected hchecks =>
      exact (mem_tables_of_selected hselected).1

/-- A message is one request at most. -/
theorem Requests.unique {entry' : ReqParser} {req' : Req} (h : Requests message entry req)
    (h' : Requests message entry' req') : entry' = entry ∧ req' = req := by
  cases h with
  | mk henvelope hversion hmethod hselected hchecks =>
      cases h' with
      | mk henvelope' hversion' hmethod' hselected' hchecks' =>
          obtain ⟨rfl, rfl, rfl, rfl⟩ := henvelope.unique henvelope'
          cases hselected.symm.trans hselected'
          exact ⟨rfl, rfl⟩

theorem Requests.answer (h : Requests message entry req) (hguarded : Guarded message) :
    rpcUnmarshalReq (fun _ => true) (some message) = .ok { rc := 0, req := some req } := by
  cases h with
  | mk henvelope hversion hmethod hselected hchecks =>
      obtain ⟨hshort, hlong, hguard⟩ :=
        hguarded _ _ _ _ _ rfl henvelope hversion hmethod
      rw [henvelope.answer_eq hversion hmethod hshort hlong, hselected]
      exact (henvelope.selected_eq_ok hselected hlong hchecks rfl).mpr
        ⟨hguard _ hselected hchecks, rfl⟩

/-- A request that is handed on has its method in the request, but for
`update_user_info`. -/
theorem Requests.method_eq (h : Requests message entry req) (hguarded : Guarded message) :
    if entry.method = "update_user_info" then req.method = none
    else ∃ buffer, req.method = some buffer ∧ 0 ∈ buffer ∧
      cString buffer = bytesOf entry.method := by
  have hmem := h.mem_tables
  cases h with
  | @mk obj rest version method id entry henvelope hversion hmethod hselected hchecks =>
      obtain ⟨-, hlong, -⟩ := hguarded _ _ _ _ _ rfl henvelope hversion hmethod
      rw [ReqHdlr.request]
      split
      next hname =>
        have hsets : entry.parser.setsMethod = false := by
          rw [← Bool.not_eq_true, setsMethod_iff hmem]
          exact not_not.mpr hname
        simp only [hsets]
        rfl
      next hname =>
        refine ⟨pieceOf method, ?_, ?_, ?_⟩
        · simp only [(setsMethod_iff hmem).mpr hname, if_true]
        · apply zero_mem_pieceOf
          exact short_of_le hlong
        · rw [cString_pieceOf]
          exact (mem_tables_of_selected hselected).2

/-- The field leaves a string in its member when the parser returns. -/
def Field.leavesStr (field : Field) : Bool :=
  match field.kind, field.demand with
  | .str, .nonEmpty | .str, .unchecked => true
  | _, _ => false

theorem str_of_content {member : Member} {text : Bytes}
    (h : req.content member = some (.str text)) :
    (req.str member).map cString = some text := by
  obtain ⟨set, hset, hcontent⟩ := Option.map_eq_some_iff.mp h
  obtain ⟨other, slot⟩ := set
  rw [Req.str, hset]
  cases slot with
  | str buffer =>
      cases hcontent
      rfl
  | _ => cases hcontent

theorem Requests.str (h : Requests message entry req) (hguarded : Guarded message)
    {field : Field} (hfield : field ∈ entry.parser.params)
    (hleaves : field.leavesStr = true) :
    ∃ text, (req.str field.member).map cString = some text := by
  have hmem := h.mem_tables
  cases h with
  | @mk obj rest version method id entry henvelope hversion hmethod hselected hchecks =>
      obtain ⟨-, -, hguard⟩ := hguarded _ _ _ _ _ rfl henvelope hversion hmethod
      obtain ⟨hmissing, -⟩ := hguard _ hselected hchecks
      have hlength : (entry.parser.valuesIn rest).length = entry.parser.params.length :=
        length_scan _ _
      rw [← List.map_fst_zip hlength.ge] at hfield
      obtain ⟨⟨field, value⟩, hpair, rfl⟩ := List.mem_map.mp hfield
      have hpasses := hchecks _ hpair
      have hpresent := hmissing _ hpair
      have hcontent := content_request hmem method id hpair
      obtain ⟨key, member, kind, demand⟩ := field
      have hkind : kind = .str ∧ (demand = .nonEmpty ∨ demand = .unchecked) := by
        cases kind <;> cases demand <;> simp_all [Field.leavesStr]
      obtain ⟨rfl, hdemand⟩ := hkind
      have hsome : value.isSome = true := by
        rcases hdemand with rfl | rfl
        · cases value with
          | none => cases hpasses
          | some value => rfl
        · exact hpresent rfl
      obtain ⟨value, rfl⟩ := Option.isSome_iff_exists.mp hsome
      obtain ⟨picked, hpick⟩ := pick_of_mem_zip_scan hpair
      obtain ⟨text, -, rfl⟩ := Option.map_eq_some_iff.mp (pickVal_eq_some.mp hpick).2
      refine ⟨cString (pieceOf text), str_of_content ?_⟩
      rw [hcontent]
      rcases hdemand with rfl | rfl
      · rfl
      · rfl

/-- The names of the tables are told apart by their bytes. -/
theorem method_eq_of_bytesOf_eq {name other : String}
    (hname : name ∈ reqParsers10.map ReqParser.method)
    (hother : other ∈ reqParsers10.map ReqParser.method) (h : bytesOf name = bytesOf other) :
    name = other := by
  have hnodup : ((reqParsers10.map ReqParser.method).map bytesOf).Nodup := by
    rw [List.map_map]
    exact nodup_names
  exact List.inj_on_of_nodup_map hnodup hname hother h

theorem Requests.mem_names (h : Requests message entry req) :
    entry.method ∈ reqParsers10.map ReqParser.method := by
  rcases h.mem_tables with hmem | hmem
  · exact List.mem_map_of_mem hmem
  · exact map_method_reqParsers20 ▸ List.mem_map_of_mem hmem

/-- The comparison of the method with a name of the tables. -/
theorem Requests.named_eq (h : Requests message entry req) (hguarded : Guarded message)
    (hset : entry.method ≠ "update_user_info") {name : String}
    (hname : name ∈ reqParsers10.map ReqParser.method) :
    req.named name = .ok (decide (name = entry.method)) := by
  have hmethod := h.method_eq hguarded
  rw [if_neg hset] at hmethod
  obtain ⟨buffer, hbuffer, hzero, hstring⟩ := hmethod
  obtain ⟨other, hother, rfl⟩ := List.mem_map.mp hname
  have hnozero : 0 ∉ bytesOf other.method := (name_of_mem_tables (Or.inl hother)).1
  have hiff : bytesOf entry.method = bytesOf other.method ↔ other.method = entry.method :=
    ⟨fun hbytes => (method_eq_of_bytesOf_eq h.mem_names hname hbytes).symm,
      fun hsame => congrArg bytesOf hsame.symm⟩
  rw [Req.named, hbuffer]
  simp only [literal, strcmp_terminated hnozero (Or.inr hzero), hstring, hiff]
  rfl

end Unmarshal

end FeedsService.Rpc
