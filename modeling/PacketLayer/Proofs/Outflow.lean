import PacketLayer.Proofs.Course.Runs

/-! # What goes out

Whatever the stream accepts belongs to a packet or a line of text, and it accepts them one
after another: all octets of those that are sent, and the first octets of those that are
not. Nothing comes from a message that could not be sealed or was asked for too late.
-/

namespace PacketLayer

variable {C : Type}

/-- How octets fare on their way into the stream. -/
structure Passage where
  /-- What the stream accepts of them. -/
  carried : Bytes
  /-- How their sending ends. There is nothing yet while they are under way. -/
  result : Option (Except Fault Unit)

/-- What is to go out, and what has come of it. -/
inductive Outgoing (C : Type) where
  /-- A request comes to an endpoint that is closed. -/
  | turnedAway (request : Request)
  /-- A message cannot be framed, signed or enciphered. -/
  | declined (request : Option Request) (payload : Bytes) (fault : Fault)
  /-- A message is sealed under a number; nobody asks for a keep-alive message. -/
  | packet (request : Option Request) (payload : Bytes) (sequence : UInt32)
      (frame wire : Bytes) (passage : Passage)
  | line (text : String) (passage : Passage)
  /-- The packets to come are sealed with new keys. -/
  | rekeyed (protection : Protection C)

/-- The octets end within the stream as their passage tells: all of them if it ends well. -/
structure Passage.Of (octets : Bytes) (passage : Passage) : Prop where
  part : passage.carried <+: octets
  whole : passage.result = some (.ok ()) → passage.carried = octets
  stops : ∀ fault, passage.result = some (.error fault) → fault.Stops

/-- The answer to the request for which octets were sent. -/
def Passage.answer? (passage : Passage) (request : Option Request) : Option Answer := do
  let request ← request
  let result ← passage.result
  return ⟨request, false, result⟩

namespace Outgoing

/-- What the stream accepts. -/
def carried : Outgoing C → Bytes
  | packet _ _ _ _ _ passage | line _ passage => passage.carried
  | turnedAway _ | declined .. | rekeyed _ => []

/-- The answer to the request, if there is one. -/
def answer? : Outgoing C → Option Answer
  | turnedAway request => some ⟨request, true, .error .closed⟩
  | declined request _ fault => request.map fun request => ⟨request, false, .error fault⟩
  | packet request _ _ _ _ passage => passage.answer? request
  | line text passage => passage.answer? (some (.line text))
  | rekeyed _ => none

/-- It was begun for a request, or for none, and is under way. -/
def UnderWay : Outgoing C → Option Request → Prop
  | packet request _ _ _ _ passage, begun => passage.result = none ∧ begun = request
  | line text passage, begun => passage.result = none ∧ begun = some (.line text)
  | turnedAway _, _ | declined .., _ | rekeyed _, _ => False

end Outgoing

def Tiding.answer? : Tiding → Option Answer
  | answered answer => some answer
  | reading | verified .. => none

/-- The answer that a deed gives to a request. -/
def Deed.answer? (deed : Deed C) : Option Answer :=
  deed.tiding.bind Tiding.answer?

variable [BlockCipher C]

/-- What is to go out is made on a lane, which is then ready for the next. -/
inductive Outgoing.On (lane : Lane C) : Outgoing C → Lane C → Prop where
  | turnedAway (request : Request) : On lane (.turnedAway request) lane
  | declined {request : Option Request} {payload : Bytes} {fault : Fault} {next : Lane C}
      (hasks : Request.Asks request payload) (hdeclines : lane.Declines payload fault next) :
      On lane (.declined request payload fault) next
  | packet {request : Option Request} {payload frame wire : Bytes} {passage : Passage}
      {next : Lane C} (hasks : Request.Asks request payload)
      (hframe : IsFrame payload lane.blockSize frame) (hseals : lane.Seals frame wire next)
      (hpassage : passage.Of wire) :
      On lane (.packet request payload lane.sequence.value frame wire passage) next
  | line {text : String} {passage : Passage} (hpassage : passage.Of (Text.Utf8.encode text)) :
      On lane (.line text passage) lane
  | rekeyed (protection : Protection C) : On lane (.rekeyed protection) (lane.install protection)

/-- A history of what goes out, each on the lane that the one before it has left. -/
inductive Outgoing.Follow : Lane C → List (Outgoing C) → Lane C → Prop where
  | done (lane : Lane C) : Follow lane [] lane
  | step {lane middle next : Lane C} {outgoing : Outgoing C} {history : List (Outgoing C)}
      (hon : outgoing.On lane middle) (hrest : Follow middle history next) :
      Follow lane (outgoing :: history) next

/-- What is to go out comes of a deed by which it is made or given up. -/
inductive Outgoing.From : Deed C → Outgoing C → Prop where
  | turnedAway (request : Request) : From (.turnedAway request) (.turnedAway request)
  | declined (request : Option Request) (payload : Bytes) (fault : Fault) :
      From (.declined request payload fault) (.declined request payload fault)
  | packet (request : Option Request) (payload : Bytes) (sequence : UInt32) (frame wire : Bytes)
      (passage : Passage) :
      From (.sealed request payload frame wire)
        (.packet request payload sequence frame wire passage)
  | line (text : String) (passage : Passage) : From (.lined text) (.line text passage)
  | rekeyed (origin : Origin) (protection : Protection C) :
      From (.rekeyed origin protection) (.rekeyed protection)

/-- The deeds of which something is to come, or new keys for it. -/
def Deed.begins : Deed C → Bool
  | turnedAway _ | declined .. | sealed .. | lined _ | rekeyed .. => true
  | _ => false

omit [BlockCipher C] in
theorem Outgoing.From.begins {deed : Deed C} {outgoing : Outgoing C}
    (hfrom : Outgoing.From deed outgoing) : deed.begins = true := by
  cases hfrom <;> rfl

/-- How the octets under way fare to the end of a course, what the stream accepts of them
and what is answered. -/
inductive Fares (next : Stage C) : Option Dispatch → Bytes → List Answer → Prop where
  | idle : Fares next none [] []
  | under {dispatch : Dispatch} (passage : Passage) (hpassage : passage.Of dispatch.rest)
      (hunder : passage.result = none →
        ∃ left, next.sending = some left ∧ left.request = dispatch.request) :
      Fares next (some dispatch) passage.carried (passage.answer? dispatch.request).toList

omit [BlockCipher C] in
/-- A keep-alive message under way answers nothing. -/
theorem Fares.answers_eq {next : Stage C} {sending : Option Dispatch} {first : Bytes}
    {answers : List Answer} (hfares : Fares next sending first answers)
    (hown : ∀ dispatch, sending = some dispatch → dispatch.request = none) : answers = [] := by
  obtain - | @⟨dispatch, passage, -, -⟩ := hfares
  · rfl
  · rw [hown dispatch rfl]
    rfl

/-- A course as a history of what goes out: first the octets under way fare on, and then
others are sent, each of them made by a deed of the course. -/
structure Accounts (s : Stage C) (deeds : List (Deed C)) (next : Stage C) (first : Bytes)
    (answers : List Answer) (history : List (Outgoing C)) : Prop where
  fares : Fares next s.sending first answers
  follow : Outgoing.Follow s.endpoint.outbound history next.endpoint.outbound
  octets : next.endpoint.acceptedBytes =
    s.endpoint.acceptedBytes ++ (first ++ history.flatMap Outgoing.carried)
  answers : deeds.filterMap Deed.answer? = answers ++ history.filterMap Outgoing.answer?
  under : ∀ outgoing ∈ history, ∀ request, outgoing.UnderWay request →
    ∃ left, next.sending = some left ∧ left.request = request
  made : List.Forall₂ Outgoing.From (deeds.filter Deed.begins) history

namespace Accounts

variable {s middle next : Stage C} {deed : Deed C} {deeds : List (Deed C)} {first : Bytes}
  {answers : List Answer} {history : List (Outgoing C)}

/-- A deed that neither sends nor answers anything leaves the account as it is. -/
theorem cons_of_same (haccounts : Accounts middle deeds next first answers history)
    (hdoes : Does s deed middle) (hsending : middle.sending = s.sending)
    (houtward : ¬deed.Outward) (hpiece : deed.piece = []) (hanswer : deed.answer? = none)
    (hbegins : deed.begins = false) :
    Accounts s (deed :: deeds) next first answers history := by
  obtain ⟨hfares, hfollow, hoctets, hanswers, hunder, hmade⟩ := haccounts
  rw [hsending] at hfares
  rw [hdoes.outbound_eq houtward] at hfollow
  rw [hdoes.acceptedBytes_eq, hpiece, List.append_nil] at hoctets
  refine ⟨hfares, hfollow, hoctets, ?_, hunder, ?_⟩
  · rw [List.filterMap_cons_none hanswer, hanswers]
  · rwa [List.filter_cons_of_neg (by simp [hbegins])]

/-- Something is turned away beside the octets under way, or new keys come beside them. -/
theorem cons_of_beside {outgoing : Outgoing C}
    (haccounts : Accounts middle deeds next first answers history)
    (hdoes : Does s deed middle) (hsending : middle.sending = s.sending)
    (hon : outgoing.On s.endpoint.outbound middle.endpoint.outbound)
    (hfrom : Outgoing.From deed outgoing) (hpiece : deed.piece = [])
    (hcarried : outgoing.carried = [])
    (hnever : ∀ request, ¬outgoing.UnderWay request) (hanswer : deed.answer? = outgoing.answer?)
    (hsilent : outgoing.answer? = none ∨ answers = []) :
    Accounts s (deed :: deeds) next first answers (outgoing :: history) := by
  obtain ⟨hfares, hfollow, hoctets, hanswers, hunder, hmade⟩ := haccounts
  rw [hsending] at hfares
  rw [hdoes.acceptedBytes_eq, hpiece, List.append_nil] at hoctets
  refine ⟨hfares, .step hon hfollow, ?_, ?_, ?_, ?_⟩
  · rw [hoctets, List.flatMap_cons, hcarried, List.nil_append]
  · cases hgiven : outgoing.answer? with
    | none => rw [List.filterMap_cons_none (hanswer.trans hgiven), hanswers,
        List.filterMap_cons_none hgiven]
    | some answer =>
        obtain rfl : answers = [] := hsilent.resolve_left (by simp [hgiven])
        rw [List.filterMap_cons_some (hanswer.trans hgiven), hanswers,
          List.filterMap_cons_some hgiven]
        rfl
  · rw [List.forall_mem_cons]
    exact ⟨fun request hunderWay => absurd hunderWay (hnever request), hunder⟩
  · rw [List.filter_cons_of_pos hfrom.begins]
    exact .cons hfrom hmade

/-- Octets are sent from their beginning. -/
theorem cons_of_begun {dispatch : Dispatch} (outgoing : Passage → Outgoing C)
    (haccounts : Accounts middle deeds next first answers history)
    (hdoes : Does s deed middle) (hfree : s.sending = none)
    (hsending : middle.sending = some dispatch)
    (hon : ∀ passage, passage.Of dispatch.rest →
      (outgoing passage).On s.endpoint.outbound middle.endpoint.outbound)
    (hfrom : ∀ passage, Outgoing.From deed (outgoing passage)) (hpiece : deed.piece = [])
    (hcarried : ∀ passage, (outgoing passage).carried = passage.carried)
    (hanswer : ∀ passage, (outgoing passage).answer? = passage.answer? dispatch.request)
    (hunderWay : ∀ passage request, (outgoing passage).UnderWay request →
      passage.result = none ∧ request = dispatch.request)
    (hsilent : deed.answer? = none) :
    ∃ passage, Accounts s (deed :: deeds) next [] [] (outgoing passage :: history) := by
  obtain ⟨hfares, hfollow, hoctets, hanswers, hunder, hmade⟩ := haccounts
  rw [hsending] at hfares
  rw [hdoes.acceptedBytes_eq, hpiece, List.append_nil] at hoctets
  obtain - | @⟨_, passage, hpassage, hleft⟩ := hfares
  refine ⟨passage, hfree ▸ .idle, .step (hon passage hpassage) hfollow, ?_, ?_, ?_, ?_⟩
  · rw [hoctets, List.flatMap_cons, hcarried, List.nil_append]
  · rw [List.filterMap_cons_none hsilent, hanswers, ← hanswer, List.nil_append]
    cases hgiven : (outgoing passage).answer? with
    | none => rw [List.filterMap_cons_none hgiven]; rfl
    | some answer => rw [List.filterMap_cons_some hgiven]; rfl
  · rw [List.forall_mem_cons]
    refine ⟨?_, hunder⟩
    rintro request hopen
    obtain ⟨hnone, rfl⟩ := hunderWay passage request hopen
    exact hleft hnone
  · rw [List.filter_cons_of_pos (hfrom passage).begins]
    exact .cons (hfrom passage) hmade

/-- The octets under way come to their end. -/
theorem cons_of_ended {request : Option Request} {rest : Bytes} {frameLength : Option Nat}
    {result : Except Fault Unit} (haccounts : Accounts middle deeds next first answers history)
    (hdoes : Does s (.ended request frameLength result) middle)
    (hsending : s.sending = some ⟨request, rest, frameLength⟩) (hfree : middle.sending = none)
    (hpassage : Passage.Of rest ⟨[], some result⟩) :
    ∃ answers, Accounts s (.ended request frameLength result :: deeds) next [] answers history := by
  obtain ⟨hfares, hfollow, hoctets, hanswers, hunder, hmade⟩ := haccounts
  rw [hfree] at hfares
  rw [hdoes.outbound_eq id] at hfollow
  rw [hdoes.acceptedBytes_eq, show (Deed.ended request frameLength result : Deed C).piece = []
    from rfl, List.append_nil] at hoctets
  obtain - | - := hfares
  have hended : Fares next (some ⟨request, rest, frameLength⟩) [] _ :=
    .under ⟨[], some result⟩ hpassage (by rintro ⟨⟩)
  rw [← hsending] at hended
  refine ⟨_, hended, hfollow, hoctets, ?_, hunder, hmade⟩
  cases request with
  | none => exact hanswers
  | some request => exact congrArg (List.cons _) hanswers

/-- The stream accepts a piece of the octets under way. -/
theorem cons_of_carried {request : Option Request} {piece rest : Bytes}
    {frameLength : Option Nat} (haccounts : Accounts middle deeds next first answers history)
    (hdoes : Does s (.carried piece) middle)
    (hsending : s.sending = some ⟨request, piece ++ rest, frameLength⟩)
    (hrest : middle.sending = some ⟨request, rest, frameLength⟩) :
    Accounts s (.carried piece :: deeds) next (piece ++ first) answers history := by
  obtain ⟨hfares, hfollow, hoctets, hanswers, hunder, hmade⟩ := haccounts
  rw [hrest] at hfares
  rw [hdoes.outbound_eq id] at hfollow
  obtain - | @⟨_, passage, hpassage, hleft⟩ := hfares
  refine ⟨?_, hfollow, ?_, hanswers, hunder, hmade⟩
  · rw [hsending]
    refine .under ⟨piece ++ passage.carried, passage.result⟩ ⟨?_, ?_, ?_⟩ hleft
    · exact (List.prefix_append_right_inj piece).mpr hpassage.part
    · exact fun hgood => congrArg (piece ++ ·) (hpassage.whole hgood)
    · exact hpassage.stops
  · rw [hoctets, hdoes.acceptedBytes_eq, Deed.piece, List.append_assoc, List.append_assoc]

end Accounts

theorem accounts_nil (s : Stage C) : ∃ answers, Accounts s [] s [] answers [] := by
  have hoctets : s.endpoint.acceptedBytes = s.endpoint.acceptedBytes ++
      ([] ++ ([] : List (Outgoing C)).flatMap Outgoing.carried) := by simp
  cases hsending : s.sending with
  | none => exact ⟨[], hsending ▸ .idle, .done _, hoctets, rfl, by simp, .nil⟩
  | some dispatch =>
      have hunder : Fares s (some dispatch) [] _ :=
        .under ⟨[], none⟩ ⟨List.nil_prefix, by rintro ⟨⟩, by rintro fault ⟨⟩⟩
          fun _ => ⟨dispatch, hsending, rfl⟩
      rw [← hsending] at hunder
      refine ⟨_, hunder, .done _, hoctets, ?_, by simp, .nil⟩
      cases dispatch.request <;> rfl

omit [BlockCipher C] in
theorem Stage.Breaks.stops {s broken : Stage C} {rest : Bytes} {fault : Fault}
    (hbreaks : s.Breaks rest fault broken) : fault.Stops := by
  cases hbreaks with
  | closed => exact .inl rfl
  | failed | refused | unflushed => exact .inr ⟨_, rfl⟩

omit [BlockCipher C] in
theorem Stage.Drafts.asks {s drafted : Stage C} {request : Option Request} {payload : Bytes}
    (hdrafts : s.Drafts request payload drafted) : Request.Asks request payload := by
  cases hdrafts with
  | own => rfl
  | keepAlive => exact ⟨_, rfl⟩

/-- Every course accounts for what goes out in it. -/
theorem Course.exists_accounts {s next : Stage C} {deeds : List (Deed C)}
    (hcourse : Course s deeds next) :
    ∃ first answers history, Accounts s deeds next first answers history := by
  -- from the last deed back, since how octets fare is told by the deeds after their beginning
  induction hcourse with
  | done s =>
      obtain ⟨answers, haccounts⟩ := accounts_nil s
      exact ⟨[], answers, [], haccounts⟩
  | @step s middle next deed deeds hdoes _ ih =>
      obtain ⟨first, answers, history, haccounts⟩ := ih
      have hkept := hdoes
      cases hdoes with
      | turnedAway _ _ _ hown =>
          exact ⟨_, _, _, haccounts.cons_of_beside hkept rfl (.turnedAway _) (.turnedAway _) rfl
            rfl (fun _ => id) rfl (.inr (haccounts.fares.answers_eq hown))⟩
      | @declined drafted request payload fault lane hfree hdrafts hdeclines =>
          have hown : ∀ dispatch, s.sending = some dispatch → dispatch.request = none := by
            rw [hfree]
            rintro dispatch ⟨⟩
          have hanswer : (Deed.declined (C := C) request payload fault).answer? =
              (Outgoing.declined (C := C) request payload fault).answer? := by
            cases request <;> rfl
          have hsending : drafted.sending = s.sending := by cases hdrafts <;> rfl
          rw [← hsending] at hown
          exact ⟨_, _, _, haccounts.cons_of_beside hkept hsending
            (.declined hdrafts.asks hdeclines) (.declined _ _ _) rfl rfl (fun _ => id) hanswer
            (.inr (haccounts.fares.answers_eq hown))⟩
      | @sealed drafted request payload frame wire lane hfree hdrafts hframe hseals =>
          obtain ⟨passage, hbegun⟩ := haccounts.cons_of_begun
            (.packet request payload s.endpoint.outbound.sequence.value frame wire)
            hkept hfree rfl
            (fun _ hpassage => .packet hdrafts.asks (isFrame_of_frame hframe) hseals hpassage)
            (fun _ => .packet _ _ _ _ _ _) rfl (fun _ => rfl) (fun _ => rfl) (fun _ _ => id) rfl
          exact ⟨_, _, _, hbegun⟩
      | @lined text _ hfree =>
          obtain ⟨passage, hbegun⟩ := haccounts.cons_of_begun (.line text) hkept hfree rfl
            (fun _ => .line) (fun _ => .line _ _) rfl (fun _ => rfl) (fun _ => rfl)
            (fun _ _ => id) rfl
          exact ⟨_, _, _, hbegun⟩
      | carried _ hsending => exact ⟨_, _, _, haccounts.cons_of_carried hkept hsending rfl⟩
      | completed _ hsending =>
          obtain ⟨answers, hended⟩ := haccounts.cons_of_ended hkept hsending rfl
            ⟨List.nil_prefix, fun _ => rfl, by rintro fault ⟨⟩⟩
          exact ⟨_, _, _, hended⟩
      | stopped _ hsending hbreaks =>
          obtain ⟨answers, hended⟩ := haccounts.cons_of_ended hkept hsending rfl
            ⟨List.nil_prefix, by rintro ⟨⟩, by rintro _ ⟨⟩; exact hbreaks.stops⟩
          exact ⟨_, _, _, hended⟩
      | rekeyed | replaced =>
          exact ⟨_, _, _, haccounts.cons_of_beside hkept rfl (.rekeyed _) (.rekeyed _ _) rfl rfl
            (fun _ => id) rfl (.inl rfl)⟩
      | acted hmeets =>
          exact ⟨_, _, _, haccounts.cons_of_same hkept (by cases hmeets <;> rfl) id rfl rfl rfl⟩
      | supplied _ hsupplies =>
          exact ⟨_, _, _, haccounts.cons_of_same hkept (by cases hsupplies <;> rfl) id rfl rfl rfl⟩
      | _ => exact ⟨_, _, _, haccounts.cons_of_same hkept rfl id rfl rfl rfl⟩

omit [BlockCipher C] in
theorem Fault.Stops.category_eq {fault : Fault} (hstops : fault.Stops) :
    fault.category = .closed ∨ fault.category = .io := by
  rcases hstops with rfl | ⟨failure, rfl⟩
  · exact .inl rfl
  · exact .inr rfl

/-- What goes out for a request that is late, or fails for its message or its engines, comes to
nothing. -/
theorem Outgoing.On.carried_eq_nil {lane next : Lane C} {outgoing : Outgoing C} {answer : Answer}
    (hon : outgoing.On lane next) (hanswer : outgoing.answer? = some answer)
    (hrefused : answer.late = true ∨ ∃ fault, answer.result = .error fault ∧
      (fault.category = .protocol ∨ fault.category = .crypto)) : outgoing.carried = [] := by
  have hnever {octets : Bytes} {passage : Passage} {request : Option Request}
      (hpassage : passage.Of octets) (hgiven : passage.answer? request = some answer) : False := by
    simp only [Passage.answer?, Option.bind_eq_bind, Option.bind_eq_some_iff] at hgiven
    obtain ⟨request, -, result, hresult, hgiven⟩ := hgiven
    obtain rfl := Option.some.inj hgiven
    rcases hrefused with hlate | ⟨fault, rfl, hcategory⟩
    · cases hlate
    · rcases (hpassage.stops fault hresult).category_eq with hstops | hstops
      · simp [hstops] at hcategory
      · simp [hstops] at hcategory
  cases hon with
  | packet _ _ _ hpassage => exact (hnever hpassage hanswer).elim
  | line hpassage => exact (hnever hpassage hanswer).elim
  | turnedAway | declined | rekeyed => rfl

theorem Outgoing.Follow.on_of_mem {lane next : Lane C} {history : List (Outgoing C)}
    (hfollow : Follow lane history next) {outgoing : Outgoing C} (hmem : outgoing ∈ history) :
    ∃ before after, outgoing.On before after := by
  induction hfollow with
  | done lane => cases hmem
  | step hon _ ih =>
      rcases List.mem_cons.mp hmem with rfl | hmem
      · exact ⟨_, _, hon⟩
      · exact ih hmem

namespace Endpoint

/-- The answers to the requests among operations, in order. -/
def answersOfRun (operations : List (Operation (Protection C))) (e : Endpoint C) : List Answer :=
  (tidingsOfRun operations e).filterMap Tiding.answer?

/-- A history recounts what goes out while operations are carried out: whatever the stream
accepts, in order and to the octet, and what is answered to every request. Only a keep-alive
message can be under way in the end. -/
structure Recounts (operations : List (Operation (Protection C))) (e : Endpoint C)
    (history : List (Outgoing C)) : Prop where
  follow : Outgoing.Follow e.outbound history (run operations e).2.outbound
  octets : (run operations e).2.acceptedBytes =
    e.acceptedBytes ++ history.flatMap Outgoing.carried
  answers : history.filterMap Outgoing.answer? = answersOfRun operations e
  refused : ∀ outgoing ∈ history, ∀ answer, outgoing.answer? = some answer →
    (answer.late = true ∨ ∃ fault, answer.result = .error fault ∧
      (fault.category = .protocol ∨ fault.category = .crypto)) → outgoing.carried = []
  under : ∀ outgoing ∈ history, ∀ request, outgoing.UnderWay request →
    request = none ∧ (run operations e).2.held ≠ none

/-- A history recounts a run as its deeds tell it: what goes out is made by them, in their
order, and new keys come with their installations. -/
structure Retells (operations : List (Operation (Protection C))) (e : Endpoint C)
    (deeds : List (Deed C)) (history : List (Outgoing C)) : Prop
    extends Recounts operations e history where
  made : List.Forall₂ Outgoing.From (deeds.filter Deed.begins) history

theorem Chronicle.exists_retells {operations : List (Operation (Protection C))} {e : Endpoint C}
    {deeds : List (Deed C)} (hfree : e.held = none) (hchronicle : Chronicle operations e deeds) :
    ∃ history, Retells operations e deeds history := by
  obtain ⟨first, answers, history, hfares, hfollow, hoctets, hanswers, hunder, hmade⟩ :=
    hchronicle.course.exists_accounts
  have hidle : (e.during .free).sending = none := by
    change e.occupying = none
    rw [occupying, hfree]
    rfl
  rw [hidle] at hfares
  obtain - | - := hfares
  refine ⟨history, ⟨hfollow, hoctets, ?_, ?_, ?_⟩, hmade⟩
  · rw [answersOfRun, ← hchronicle.tidings, List.filterMap_filterMap]
    exact hanswers.symm
  · intro outgoing hmem answer hanswer hrefused
    obtain ⟨before, after, hon⟩ := hfollow.on_of_mem hmem
    exact hon.carried_eq_nil hanswer hrefused
  · intro outgoing hmem request hopen
    obtain ⟨left, hleft, rfl⟩ := hunder outgoing hmem request hopen
    obtain ⟨message, hheld, rfl⟩ := Option.map_eq_some_iff.mp hleft
    exact ⟨rfl, by simp [hheld]⟩

/-- Whatever is done with an endpoint, the octets that its stream accepts are those of its
packets and lines, one after another and each from its beginning: all of them if it is sent.
Whichever deeds the run may consist of, they install what operations and scripts install, and
nothing else. -/
theorem run_recounts {e : Endpoint C} (hfree : e.held = none)
    (operations : List (Operation (Protection C))) :
    (∃ deeds, Chronicle operations e deeds) ∧
      ∀ deeds, Chronicle operations e deeds → Accords operations e deeds ∧
        ∃ history, Retells operations e deeds history :=
  ⟨exists_chronicle operations e, fun _ hchronicle =>
    ⟨hchronicle.accords, hchronicle.exists_retells hfree⟩⟩

/-- A message of which a stream accepts three octets before it fails, and others after it. -/
def faltering : List (Operation (Protection Rehearsal.Cipher)) :=
  [.scriptWrites [.accept 3, .accept 0], .write [1], .writeBanner "x", .close, .write []]

theorem run_recounts_faltering :
    newEndpoint.held = none ∧ (∃ deeds, Chronicle faltering newEndpoint deeds) ∧
      ∀ deeds, Chronicle faltering newEndpoint deeds → Accords faltering newEndpoint deeds ∧
        ∃ history, Retells faltering newEndpoint deeds history :=
  ⟨rfl, run_recounts rfl faltering⟩

end Endpoint

end PacketLayer
