import PacketLayer.Proofs.Discretion.Portions

/-! # Runs that do not read

While endpoints that are akin do the same without reading, they stay akin. A writer that does
nothing else notes the same, whatever it is asked to send, and puts the same portions on its
stream but for their content.
-/

namespace PacketLayer

variable {C : Type} [BlockCipher C]

omit [BlockCipher C] in
theorem ReadScript.octets_append (script items : ReadScript (Protection C)) :
    ReadScript.octets (script ++ items) = script.octets ++ items.octets :=
  List.flatMap_append

namespace Endpoint

variable {octets others : Bytes} {e other : Endpoint C}
  {operation operationOther : Operation (Protection C)}
  {operations operationsOther : List (Operation (Protection C))}

namespace Akin

theorem count (hakin : Akin octets others e other) :
    Akin octets others e.countOperation other.countOperation :=
  hakin.outside countOperation ⟨fun _ _ => rfl, fun _ => rfl⟩

theorem feed (hakin : Akin octets others e other) {items itemsOther : ReadScript (Protection C)}
    (hitems : List.Forall₂ ReadItem.Akin items itemsOther) :
    Akin (octets ++ items.octets) (others ++ itemsOther.octets)
      { e with reads := e.reads ++ items } { other with reads := other.reads ++ itemsOther } := by
  obtain ⟨-, -, -, -, -, hreads, rfl, rfl⟩ := hakin.hidden
  rw [← ReadScript.octets_append, ← ReadScript.octets_append]
  exact hakin.reread (List.rel_append hreads hitems)

/-- An operation that does not read keeps endpoints akin. -/
theorem start (hakin : Akin octets others e other) (hoperation : operation.Akin operationOther)
    (hdeaf : operation.Deaf e.closed) :
    Akin (octets ++ operation.fed) (others ++ operationOther.fed) (Endpoint.start operation e).2
      (Endpoint.start operationOther other).2 := by
  cases hoperation
  case feed hitems => exact hakin.feed hitems
  all_goals
    change Akin (octets ++ []) (others ++ []) _ _
    rw [List.append_nil, List.append_nil]
  case write hpayload =>
    rw [Endpoint.start, Endpoint.start, Act.bind_pure_eq, Act.bind_pure_eq]
    exact (agree_write hpayload hakin).akin
  case read =>
    have hclosed : other.closed = true := hakin.closed_eq ▸ hdeaf
    have hstart {e : Endpoint C} (hclosed : e.closed = true) :
        (Endpoint.start .read e).2 = e := by
      change ((Endpoint.read >>= fun packet? => pure (Reply.packet packet?)) e).2 = e
      rw [Act.bind_pure_eq, Endpoint.read, if_pos hclosed]
    rw [hstart hdeaf, hstart hclosed]
    exact hakin
  case readBanner => exact hdeaf.elim
  case writeBanner line =>
    rw [Endpoint.start, Act.bind_pure_eq, Act.bind_pure_eq]
    exact (agree_writeBanner line hakin).akin
  case installOutbound hdependable => exact akin_replaceOutbound hdependable hakin
  case installInbound protection => exact hakin.act .idle (.installInbound protection)
  case scriptWrites items =>
    exact hakin.outside (fun e => { e with writes := e.writes ++ items })
      ⟨fun _ _ => rfl, fun _ => rfl⟩
  case scriptFlushes items =>
    exact hakin.outside (fun e => { e with flushes := e.flushes ++ items })
      ⟨fun _ _ => rfl, fun _ => rfl⟩
  case setKeepAlive interval handler => exact hakin.act .idle (.setKeepAlive interval handler)
  case advance milliseconds =>
    exact hakin.outside (fun e => e.advanceTo (e.now + milliseconds)) ⟨fun _ _ => rfl, fun _ => rfl⟩
  case close => exact hakin.act .idle .close

theorem perform (hakin : Akin octets others e other) (hoperation : operation.Akin operationOther)
    (hdeaf : operation.Deaf e.closed) :
    Akin (octets ++ operation.fed) (others ++ operationOther.fed) (Endpoint.perform operation e).2
      (Endpoint.perform operationOther other).2 :=
  akin_upkeep .idle (hakin.count.start hoperation hdeaf)

/-- Operations that do not read keep endpoints akin. -/
theorem run (hakin : Akin octets others e other)
    (hoperations : List.Forall₂ Operation.Akin operations operationsOther)
    (hdeaf : ∀ operation ∈ operations, operation.Deaf e.closed) :
    ∃ left leftOther, Akin left leftOther (Endpoint.run operations e).2
      (Endpoint.run operationsOther other).2 := by
  induction hoperations generalizing octets others e other with
  | nil => exact ⟨octets, others, hakin⟩
  | @cons operation operationOther operations operationsOther hoperation _ ih =>
      rw [List.forall_mem_cons] at hdeaf
      rw [run_cons, run_cons]
      exact ih (hakin.perform hoperation hdeaf.1) fun later hmem =>
        (hdeaf.2 later hmem).of_closed (lasts_perform operation e).closed

end Akin

/-- Endpoints that are akin and do not read put portions of the same kind on their streams. -/
theorem akin_portions (hakin : Akin octets others e other)
    (hoperations : List.Forall₂ Operation.Akin operations operationsOther)
    (hdeaf : ∀ operation ∈ operations, operation.Deaf e.closed) :
    List.Forall₂ Portion.Akin (portions operations e) (portions operationsOther other) := by
  induction hoperations generalizing octets others e other with
  | nil => exact .nil
  | @cons operation operationOther operations operationsOther hoperation _ ih =>
      rw [List.forall_mem_cons] at hdeaf
      have hstarted := hakin.count.start hoperation hdeaf.1
      refine List.rel_append (List.rel_append (akin_startPortions hoperation hakin.count)
        (akin_upkeepPortions .idle hstarted)) ?_
      exact ih (hakin.perform hoperation hdeaf.1) fun later hmem =>
        (hdeaf.2 later hmem).of_closed (lasts_perform operation e).closed

/-- What one of two endpoints that are akin does not read, the other does not read either. -/
theorem deaf_other (hakin : Akin octets others e other)
    (hoperations : List.Forall₂ Operation.Akin operations operationsOther)
    (hdeaf : ∀ operation ∈ operationsOther, operation.Deaf other.closed) :
    ∀ operation ∈ operations, operation.Deaf e.closed := by
  rw [← hakin.closed_eq] at hdeaf
  induction hoperations with
  | nil => simp
  | cons hoperation _ ih =>
      rw [List.forall_mem_cons] at hdeaf ⊢
      refine ⟨?_, ih hdeaf.2⟩
      cases hoperation <;> exact hdeaf.1

end Endpoint

end PacketLayer
