import PacketLayer.Proofs.Course

/-! # What deeds take

Every octet that is received, every protection that is installed and every action of another
party is taken from somewhere: from the operation that was asked for or from the front of a
script. So the deeds of a course show them in the order in which they were asked for and
scripted, each once, up to those that are left.
-/

namespace PacketLayer

variable {P C : Type}

/-- Something that an operation asks for or a script holds in store. -/
inductive Cue (P : Type) where
  | octet (byte : UInt8)
  | outbound (protection : P)
  | action (action : Action P)

def ReadItem.cues : ReadItem P → List (Cue P)
  | data bytes => bytes.map .octet
  | installOutbound protection => [.outbound protection]
  | act action => [.action action]
  | eof | fail _ | pause _ | resumeAt _ => []

def WriteItem.cues : WriteItem P → List (Cue P)
  | act action => [.action action]
  | accept _ | fail _ | pause _ | resumeAt _ => []

def ReadScript.cues (items : ReadScript P) : List (Cue P) :=
  items.flatMap ReadItem.cues

def WriteScript.cues (items : WriteScript P) : List (Cue P) :=
  items.flatMap WriteItem.cues

/-- What an operation asks for itself, or adds to a script. -/
def Operation.cues : Origin → Operation P → List (Cue P)
  | .operation, installOutbound protection => [.outbound protection]
  | .operation, operation => operation.action?.toList.map .action
  | .reads, feed items => items.cues
  | .writes, scriptWrites items => items.cues
  | .reads, _ | .writes, _ => []

/-- What a deed takes from an operation or from a script. -/
def Deed.cues (origin : Origin) : Deed C → List (Cue (Protection C))
  | rekeyed source protection => if source = origin then [.outbound protection] else []
  | acted source _ action => if source = origin then [.action action] else []
  | received octets => if origin = .reads then octets.map .octet else []
  | _ => []

/-- What a deed adds to what can be taken. -/
def Deed.brings (origin : Origin) : Deed C → List (Cue (Protection C))
  | asked operation => operation.cues origin
  | _ => []

def Phase.cues (origin : Origin) : Phase C → List (Cue (Protection C))
  | ordered operation => operation.cues origin
  | free | reading _ => []

/-- What is left to be taken, what the operation that was asked for adds included. -/
def Stage.cues (s : Stage C) : Origin → List (Cue (Protection C))
  | .operation => s.phase.cues .operation
  | .reads => s.reads.cues ++ s.phase.cues .reads
  | .writes => s.writes.cues ++ s.phase.cues .writes

/-- What is left on the scripts of an endpoint. -/
def Endpoint.cues (e : Endpoint C) : Origin → List (Cue (Protection C))
  | .operation => []
  | .reads => e.reads.cues
  | .writes => e.writes.cues

namespace ReadScript

theorem cues_append (first second : ReadScript P) :
    cues (first ++ second) = cues first ++ cues second :=
  List.flatMap_append

theorem cues_leftOver (want : Nat) (bytes : Bytes) (items : ReadScript (Protection C)) :
    cues (.data bytes :: items) =
      (bytes.take want).map .octet ++ cues (Endpoint.leftOver want bytes items) := by
  have hsplit : cues (.data bytes :: items) =
      (bytes.take want).map .octet ++ ((bytes.drop want).map .octet ++ cues items) := by
    rw [← List.append_assoc, ← List.map_append, List.take_append_drop]
    rfl
  rw [hsplit]
  unfold Endpoint.leftOver
  split
  next hnone => rw [hnone]; rfl
  next hrest => rw [hrest]; rfl

theorem mem_cues {items : ReadScript P} {action : Action P} :
    .action action ∈ cues items ↔ .act action ∈ items := by
  refine List.mem_flatMap.trans ⟨?_, fun hmem => ⟨_, hmem, List.mem_singleton.mpr rfl⟩⟩
  rintro ⟨item, hmem, hcue⟩
  cases item with
  | act other =>
      obtain rfl := Cue.action.inj (List.mem_singleton.mp hcue)
      exact hmem
  | data => simp [ReadItem.cues] at hcue
  | installOutbound => cases List.mem_singleton.mp hcue
  | eof | fail | pause | resumeAt => cases hcue

theorem Skips.cues_eq {now : Nat} {items left : ReadScript P} (hskips : items.Skips now left) :
    cues items = cues left := by
  cases hskips <;> rfl

end ReadScript

namespace WriteScript

theorem cues_append (first second : WriteScript P) :
    cues (first ++ second) = cues first ++ cues second :=
  List.flatMap_append

theorem Skips.cues_eq {now : Nat} {moment : Moment} {items left : WriteScript P}
    (hskips : items.Skips now moment left) : cues items = cues left := by
  cases hskips <;> rfl

theorem mem_cues {items : WriteScript P} {action : Action P} :
    .action action ∈ cues items ↔ .act action ∈ items := by
  refine List.mem_flatMap.trans ⟨?_, fun hmem => ⟨_, hmem, List.mem_singleton.mpr rfl⟩⟩
  rintro ⟨item, hmem, hcue⟩
  cases item with
  | act other =>
      obtain rfl := Cue.action.inj (List.mem_singleton.mp hcue)
      exact hmem
  | accept | fail | pause | resumeAt => cases hcue

theorem Accepts.cues_eq {piece rest : Bytes} {items left : WriteScript P}
    (haccepts : items.Accepts piece rest left) : cues items = cues left := by
  cases haccepts <;> rfl

end WriteScript

variable [BlockCipher C]

/-- What a deed takes stands first among what was left before. -/
theorem Does.takes {here there : Stage C} {deed : Deed C} (hdoes : Does here deed there)
    (hasked : ∀ operation, deed ≠ .asked operation) (origin : Origin) :
    here.cues origin = deed.cues origin ++ there.cues origin := by
  -- an operation that is over had nothing in store but what its deed takes
  have hdone {operation : Operation (Protection C)} (hphase : here.phase = .ordered operation)
      (hnothing : ∀ origin, operation.cues origin = []) (origin : Origin) :
      here.cues origin = { here with phase := .free }.cues origin := by
    cases origin <;> simp [Stage.cues, hphase, Phase.cues, hnothing]
  cases hdoes with
  | asked => exact absurd rfl (hasked _)
  | @turnedAway operation _ hphase hrequest =>
      refine hdone hphase (fun origin => ?_) origin
      cases operation with
      | write | writeBanner => cases origin <;> rfl
      | _ => cases hrequest
  | declined _ hdrafts _ | sealed _ hdrafts _ _ =>
      cases hdrafts with
      | own hphase => exact hdone hphase (fun origin => by cases origin <;> rfl) origin
      | keepAlive => cases origin <;> rfl
  | lined hphase | leapt hphase | unread hphase | reading hphase | listening hphase =>
      exact hdone hphase (fun origin => by cases origin <;> rfl) origin
  | carried _ _ haccepts =>
      cases origin with
      | writes => exact congrArg (· ++ here.phase.cues .writes) haccepts.cues_eq
      | operation | reads => rfl
  | stopped _ _ hbreaks =>
      cases hbreaks with
      | failed hwrites | refused hwrites =>
          cases origin with
          | writes => simp [Stage.cues, hwrites, WriteScript.cues, WriteItem.cues, Deed.cues]
          | operation | reads => rfl
      | closed | unflushed => cases origin <;> rfl
  | replaced hphase =>
      cases origin <;> simp [Stage.cues, Phase.cues, Operation.cues, Deed.cues, hphase]
  | rekeyed hphase _ hreads =>
      cases origin <;>
        simp [Stage.cues, Phase.cues, Deed.cues, ReadScript.cues, ReadItem.cues, hphase, hreads]
  | acted hmeets =>
      cases hmeets with
      | @operation operation _ hphase haction =>
          cases operation with
          | close | installInbound | setKeepAlive =>
              obtain rfl := Option.some.inj haction
              cases origin <;>
                simp [Stage.cues, Phase.cues, Operation.cues, Operation.action?, Deed.cues, hphase]
          | _ => cases haction
      | reads hphase _ hreads =>
          cases origin <;>
            simp [Stage.cues, Phase.cues, Deed.cues, ReadScript.cues, ReadItem.cues, hphase, hreads]
      | writes _ _ hwrites =>
          cases origin <;> simp [Stage.cues, Deed.cues, WriteScript.cues, WriteItem.cues, hwrites]
  | supplied hphase hsupplies =>
      cases hsupplies with
      | reads items =>
          cases origin <;>
            simp [Stage.cues, Phase.cues, Operation.cues, Operation.action?, Deed.cues, hphase,
              ReadScript.cues_append]
      | writes items =>
          cases origin <;>
            simp [Stage.cues, Phase.cues, Operation.cues, Operation.action?, Deed.cues, hphase,
              WriteScript.cues_append]
      | flushes => exact hdone hphase (fun origin => by cases origin <;> rfl) origin
  | @received intake attempt bytes items hphase _ _ hreads =>
      cases origin with
      | reads =>
          simp [Stage.cues, Phase.cues, Deed.cues, hphase, hreads,
            ReadScript.cues_leftOver attempt.want bytes items]
      | operation | writes => simp [Stage.cues, Phase.cues, Deed.cues, hphase]
  | attempting _ _ hphase | attempted hphase | opened hphase | verified hphase | left hphase =>
      cases origin <;> simp [Stage.cues, Phase.cues, Deed.cues, hphase]
  | passedRead _ _ hskips =>
      cases origin with
      | reads => exact congrArg (· ++ here.phase.cues .reads) hskips.cues_eq
      | operation | writes => rfl
  | passedWrite _ _ hskips =>
      cases origin with
      | writes => exact congrArg (· ++ here.phase.cues .writes) hskips.cues_eq
      | operation | reads => rfl
  | completed | heldBack | resumed | admitted | waited | stalled | activated | unfolded | aside =>
      cases origin <;> rfl

theorem Does.cues_eq {here there : Stage C} {deed : Deed C} (hdoes : Does here deed there)
    (origin : Origin) :
    here.cues origin ++ deed.brings origin = deed.cues origin ++ there.cues origin := by
  cases deed with
  | asked operation =>
      cases hdoes with
      | asked _ hphase =>
          cases origin <;> simp [Stage.cues, Phase.cues, Deed.cues, Deed.brings, hphase]
  | _ => exact (List.append_nil _).trans (hdoes.takes nofun origin)

/-- What is there and what is added is taken in its order, up to what is left. -/
theorem Course.cues_eq {s next : Stage C} {deeds : List (Deed C)} (hcourse : Course s deeds next)
    (origin : Origin) :
    s.cues origin ++ deeds.flatMap (Deed.brings origin) =
      deeds.flatMap (Deed.cues origin) ++ next.cues origin := by
  induction hcourse with
  | done s => exact List.append_nil _
  | step hdoes _ ih =>
      rw [List.flatMap_cons, ← List.append_assoc, hdoes.cues_eq origin, List.append_assoc, ih,
        List.flatMap_cons, List.append_assoc]

omit [BlockCipher C] in
/-- Within an operation nothing is added to what can be taken. -/
theorem Deed.brings_of_inside {deeds : List (Deed C)} (origin : Origin)
    (hinside : ∀ deed ∈ deeds, deed.Inside) : deeds.flatMap (Deed.brings origin) = [] := by
  refine List.flatMap_eq_nil_iff.mpr fun deed hmem => ?_
  have hinside := hinside deed hmem
  cases deed with
  | asked => exact False.elim hinside
  | _ => rfl

end PacketLayer
