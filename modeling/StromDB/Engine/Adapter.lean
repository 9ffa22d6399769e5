import StromDB.Engine.Listing
import StromDB.Engine.Store
import StromDB.Lib.Archive
import StromDB.Lib.Client

namespace StromDB

open Archive Checked Client

def PUT_BYTES_MAX : Nat := 5 * 1024 * 1024 * 1024

@[ext] structure PutBody where
  bytes : Bytes
  nonempty : bytes ≠ []
  bounded : bytes.length ≤ PUT_BYTES_MAX

instance : DecidableEq PutBody := fun a b => decidable_of_iff' (a.bytes = b.bytes) PutBody.ext_iff

inductive PutBodyError where
  | empty
  | overPutBound (bytesActual : Nat)
deriving DecidableEq, Repr

def PutBodyError.toText : PutBodyError → String
  | .empty => "object body is empty"
  | .overPutBound bytesActual => "object body is " ++ toString bytesActual ++ " bytes; the bound is " ++ toString PUT_BYTES_MAX

def PutBody.tryFrom (raw : Bytes) : Except PutBodyError PutBody :=
  if empty : raw = [] then .error .empty
  else if exceeds : raw.length > PUT_BYTES_MAX then .error (.overPutBound raw.length)
  else .ok ⟨raw, empty, Nat.le_of_not_gt exceeds⟩

structure Etag where
  text : String
  nonempty : text ≠ ""
deriving DecidableEq, Repr

structure RawObject where
  body : Bytes
  etag : Etag
deriving DecidableEq

structure GetResult where
  size : Nat
  etag : Option String
  stream : List (Except BackendError Bytes)

def GetResult.bytes (observation : GetResult) : Except BackendError Bytes := (observation.stream.mapM id).map List.flatten

abbrev StoreProgram := Program ObjectKey Bytes GetResult BackendError

namespace Backend

def putOpts (location : ObjectKey) (payload : Bytes) : StoreProgram (Except BackendError Unit) := .perform (.create location payload)

def getOpts (location : ObjectKey) : StoreProgram (Except BackendError GetResult) := .perform (.read location)

def delete (location : ObjectKey) : StoreProgram (Except BackendError Unit) := .perform (.delete location)

end Backend

def compareOccupant (location : ObjectKey) (candidate : PutBody) : StoreProgram CreateEvidence := do
  match ← Backend.getOpts location with
  | .ok observation =>
    if observation.size ≠ candidate.bytes.length then pure .notOurs
    else
      match observation.bytes with
      | .ok occupant => if occupant = candidate.bytes then pure .durableMatch else pure .notOurs
      | .error _ => pure .unresolved
  | .error _ => pure .unresolved

def createIfAbsent (key : ObjectKey) (candidate : PutBody) : StoreProgram (Except StoreError CreateEvidence) := do
  match ← Backend.putOpts key candidate.bytes with
  | .ok _ => pure (.ok .direct)
  | .error refusal =>
    match refusal.kind with
    | .alreadyExists | .precondition => do
      let evidence ← compareOccupant key candidate
      pure (.ok evidence)
    | .permissionDenied | .unauthenticated => pure (.error (.rejected refusal.detail))
    | _ => pure (.ok .unresolved)

def requireEtag (observed : Option String) : Except StoreError Etag :=
  match observed with
  | none => .error (.rejected "backend returned no etag for an observed object")
  | some raw => if empty : raw = "" then .error (.rejected "etag is empty") else .ok ⟨raw, empty⟩

def consumeChunks (key : ObjectKey) (bytesMax : Nat) : Bytes → List (Except BackendError Bytes) → Except StoreError Bytes
  | body, [] => .ok body
  | body, chunk :: rest => do
    let chunk ← chunk.mapError mapOperationError
    if chunk.length > bytesMax - body.length then
      .error (.contradiction (.oversizedObject key.text bytesMax (min (bytesMax + 1) (2 ^ 64 - 1))))
    else consumeChunks key bytesMax (body ++ chunk) rest

def consumeBoundedObject (key : ObjectKey) (bytesMax : Nat) (observation : GetResult) : Except StoreError RawObject := do
  let etag ← requireEtag observation.etag
  let body ← consumeChunks key bytesMax [] observation.stream
  .ok ⟨body, etag⟩

def observeBounded (key : ObjectKey) (bytesMax : Nat) : Except BackendError GetResult → Except StoreError (Option RawObject)
  | .ok observation =>
    if observation.size > bytesMax then .error (.contradiction (.oversizedObject key.text bytesMax observation.size))
    else (consumeBoundedObject key bytesMax observation).map some
  | .error source => if source.kind = .notFound then .ok none else .error (mapOperationError source)

def read (key : ObjectKey) (bytesMax : Nat) : StoreProgram (Except StoreError (Option RawObject)) := do
  let reply ← Backend.getOpts key
  pure (observeBounded key bytesMax reply)

def deleteIdempotent (key : ObjectKey) : StoreProgram (Except StoreError Unit) := do
  match ← Backend.delete key with
  | .ok _ => pure (.ok ())
  | .error source => if source.kind = .notFound then pure (.ok ()) else pure (.error (mapOperationError source))

def GetResult.Shows (observation : GetResult) (body : Bytes) : Prop :=
  observation.size = body.length ∧ ∀ collected, observation.bytes = .ok collected → collected = body

def BackendError.Conflict (error : BackendError) : Prop := error.kind = .alreadyExists ∨ error.kind = .precondition

def BackendError.Absent (error : BackendError) : Prop := error.kind = .notFound

def sharedBackend : Setting Bytes GetResult BackendError where
  shows := GetResult.Shows
  conflict := BackendError.Conflict
  absent := BackendError.Absent
  faulty := True
  shared := True

abbrev StoreWorld := World ObjectKey Bytes GetResult BackendError
abbrev StoreSlots := Client.Slots ObjectKey Bytes
abbrev StoreRequest := Client.Request ObjectKey Bytes
abbrev StoreEvent := Client.Event ObjectKey Bytes GetResult BackendError

def EvidenceHolds (key : ObjectKey) (candidate : Bytes) (world : StoreWorld) : CreateEvidence → Prop
  | .direct => world.Held key ⟨candidate, true⟩
  | .durableMatch => (∃ other, world.Held key ⟨other, false⟩) ∧ ∃ own, world.Held key ⟨candidate, own⟩
  | .notOurs => (∃ other, world.Held key ⟨other, false⟩) ∧ ∃ occupant, occupant.body ≠ candidate ∧ world.Held key occupant
  | .unresolved => True

theorem EvidenceHolds.lasting (key : ObjectKey) (candidate : Bytes) (evidence : CreateEvidence) :
    Lasting fun world => EvidenceHolds key candidate world evidence := by
  intro before after more holds
  cases evidence with
  | direct => exact holds.later more
  | durableMatch =>
    obtain ⟨⟨other, taken⟩, own, held⟩ := holds
    exact ⟨⟨other, taken.later more⟩, own, held.later more⟩
  | notOurs =>
    obtain ⟨⟨other, taken⟩, occupant, differs, held⟩ := holds
    exact ⟨⟨other, taken.later more⟩, occupant, differs, held.later more⟩
  | unresolved => trivial

abbrev SendsOnce {α : Type} (program : StoreProgram α) (post : Checked α → StoreWorld → Prop) (world : StoreWorld) : Prop :=
  program.Meets sharedBackend (fun world => world.creates ≤ 1) post world

def Concludes (key : ObjectKey) (candidate : Bytes) (outcome : Checked CreateEvidence) (world : StoreWorld) : Prop :=
  world.creates ≤ 1 ∧ ∀ evidence, outcome = .ok evidence → EvidenceHolds key candidate world evidence

theorem concludes_done {key : ObjectKey} {candidate : Bytes} {evidence : CreateEvidence} {world : StoreWorld} (sent : world.creates ≤ 1)
    (holds : EvidenceHolds key candidate world evidence) :
    SendsOnce (Program.done evidence) (Concludes key candidate) world := by
  refine (EvidenceHolds.lasting key candidate evidence).done evidence ?_ world sent holds
  intro later bounded known
  refine ⟨bounded, ?_⟩
  rintro _ ⟨⟩
  exact known

theorem compareOccupant_spec {key : ObjectKey} (candidate : PutBody) (world : StoreWorld) (sent : world.creates ≤ 1)
    (taken : ∃ other, world.Held key ⟨other, false⟩) :
    SendsOnce (compareOccupant key candidate) (Concludes key candidate.bytes) world := by
  have lasting : Lasting fun world : StoreWorld => ∃ other, world.Held key ⟨other, false⟩ :=
    fun _ _ more held => held.imp fun _ held => held.later more
  simp only [compareOccupant, Backend.getOpts, Program.perform, Program.send_bind, Program.done_bind]
  refine lasting.read _ key _ ?_ world sent taken
  intro reply later sent taken seen
  cases reply with
  | error error => exact concludes_done sent trivial
  | ok observation =>
    obtain ⟨occupant, held, size, body⟩ := seen observation rfl
    simp only
    split
    case isTrue differs =>
      refine concludes_done sent ⟨taken, occupant, ?_, held⟩
      rintro same
      exact differs (size.trans (congrArg List.length same))
    case isFalse =>
      cases read : observation.bytes with
      | error error => exact concludes_done sent trivial
      | ok collected =>
        have shown : collected = occupant.body := body collected read
        simp only
        split
        case isTrue same =>
          refine concludes_done sent ⟨taken, occupant.own, ?_⟩
          rw [← same, shown]
          exact held
        case isFalse differs =>
          exact concludes_done sent ⟨taken, occupant, shown ▸ differs, held⟩

def Reports {Failure : Type} (key : ObjectKey) (candidate : Bytes) (outcome : Checked (Except Failure CreateEvidence))
    (world : StoreWorld) : Prop :=
  world.creates ≤ 1 ∧ ∀ evidence, outcome = .ok (.ok evidence) → EvidenceHolds key candidate world evidence

theorem reports_done {Failure : Type} {key : ObjectKey} {candidate : Bytes} {value : Except Failure CreateEvidence} {world : StoreWorld}
    (sent : world.creates ≤ 1) (holds : ∀ evidence, value = .ok evidence → EvidenceHolds key candidate world evidence) :
    SendsOnce (Program.done value) (Reports key candidate) world := by
  have lasting : Lasting fun world : StoreWorld => ∀ evidence, value = .ok evidence → EvidenceHolds key candidate world evidence :=
    fun before after more known evidence same => EvidenceHolds.lasting key candidate evidence before after more (known evidence same)
  refine lasting.done value ?_ world sent holds
  intro later bounded known
  refine ⟨bounded, ?_⟩
  rintro evidence ⟨⟩
  exact known evidence rfl

theorem createIfAbsent_spec (key : ObjectKey) (candidate : PutBody) (world : StoreWorld) (fresh : world.Fresh) :
    SendsOnce (createIfAbsent key candidate) (Reports key candidate.bytes) world := by
  simp only [createIfAbsent, Backend.putOpts, Program.perform, Program.send_bind, Program.done_bind]
  refine World.Fresh.create ?_ world fresh
  intro reply later sent inserted refused
  cases reply with
  | ok u =>
    refine reports_done sent ?_
    rintro _ ⟨⟩
    exact inserted u rfl
  | error error =>
    have compared (conflict : error.Conflict) :
        SendsOnce (compareOccupant key candidate >>= fun evidence => pure (.ok evidence : Except StoreError CreateEvidence))
        (Reports key candidate.bytes) later := by
      refine Program.Meets.bind _ _ ?_ ?_ later (compareOccupant_spec candidate later sent (refused error rfl conflict))
      · intro evidence last known
        refine reports_done known.1 ?_
        rintro _ ⟨⟩
        exact known.2 evidence rfl
      · intro message last known
        exact ⟨known.1, nofun⟩
    cases kind : error.kind with
    | alreadyExists => simpa only [kind] using compared (.inl kind)
    | precondition => simpa only [kind] using compared (.inr kind)
    | permissionDenied | unauthenticated =>
      simp only [kind]
      exact reports_done sent nofun
    | _ =>
      simp only [kind]
      refine reports_done sent ?_
      rintro _ ⟨⟩
      trivial

theorem consumeChunks_ok {key : ObjectKey} {bytesMax : Nat} {stream : List (Except BackendError Bytes)} : ∀ body whole : Bytes,
    consumeChunks key bytesMax body stream = .ok whole →
    ∃ collected, (stream.mapM id).map List.flatten = .ok collected ∧ whole = body ++ collected := by
  induction stream with
  | nil =>
    rintro body _ ⟨⟩
    exact ⟨[], rfl, (List.append_nil body).symm⟩
  | cons chunk rest ih =>
    intro body whole consumed
    simp only [consumeChunks, bind_ok_iff, mapError_ok_iff] at consumed
    obtain ⟨bytes, rfl, consumed⟩ := consumed
    split at consumed
    · cases consumed
    obtain ⟨collected, gathered, rfl⟩ := ih _ whole consumed
    obtain ⟨chunks, all, rfl⟩ : ∃ chunks, rest.mapM id = .ok chunks ∧ chunks.flatten = collected := by
      cases all : rest.mapM id with
      | error error =>
        rw [all] at gathered
        cases gathered
      | ok chunks =>
        rw [all] at gathered
        cases gathered
        exact ⟨chunks, rfl, rfl⟩
    simp [id, all, Except.map]

theorem observeBounded_some {key : ObjectKey} {bytesMax : Nat} {reply : Except BackendError GetResult} {observed : RawObject}
    (read : observeBounded key bytesMax reply = .ok (some observed)) :
    ∃ observation, reply = .ok observation ∧ observation.bytes = .ok observed.body := by
  cases reply with
  | error source =>
    simp only [observeBounded] at read
    split at read <;> cases read
  | ok observation =>
    refine ⟨observation, rfl, ?_⟩
    simp only [observeBounded] at read
    split at read
    · cases read
    cases consumed : consumeBoundedObject key bytesMax observation with
    | error error =>
      rw [consumed] at read
      cases read
    | ok object =>
      rw [consumed] at read
      cases read
      simp only [consumeBoundedObject, bind_ok_iff] at consumed
      obtain ⟨_, _, body, chunks, done⟩ := consumed
      cases done
      obtain ⟨collected, gathered, rfl⟩ := consumeChunks_ok _ _ chunks
      exact gathered

theorem read_spec (key : ObjectKey) (bytesMax : Nat) (world : StoreWorld) (sent : world.creates ≤ 1) :
    SendsOnce (read key bytesMax) (fun outcome world => world.creates ≤ 1 ∧
      ∀ observed, outcome = .ok (.ok (some observed)) → ∃ own, world.Held key ⟨observed.body, own⟩) world := by
  have nothing : Lasting fun _ : StoreWorld => True := fun _ _ _ known => known
  refine nothing.read _ key _ ?_ world sent trivial
  intro reply later sent _ seen
  have holds : ∀ observed, observeBounded key bytesMax reply = .ok (some observed) → ∃ own, later.Held key ⟨observed.body, own⟩ := by
    intro observed read
    obtain ⟨observation, rfl, gathered⟩ := observeBounded_some read
    obtain ⟨occupant, held, _, body⟩ := seen observation rfl
    exact ⟨occupant.own, body _ gathered ▸ held⟩
  have lasting : Lasting fun world : StoreWorld =>
      ∀ observed, observeBounded key bytesMax reply = .ok (some observed) → ∃ own, world.Held key ⟨observed.body, own⟩ :=
    fun _ _ more known observed same => (known observed same).imp fun _ held => held.later more
  refine lasting.done _ ?_ later sent holds
  intro last sent known
  refine ⟨sent, ?_⟩
  intro observed same
  exact known observed (Except.ok.inj same)

end StromDB
