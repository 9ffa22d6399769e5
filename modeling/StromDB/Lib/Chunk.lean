import StromDB.Lib.Checked

def emitUntil {State Item : Type} (emit : State → Item → Checked (State × Bool)) : State → List Item → Checked (State × Bool)
  | state, [] => pure (state, true)
  | state, item :: rest => do
    let (state, more) ← emit state item
    if more then emitUntil emit state rest else pure (state, false)

section

variable {State Item : Type} (emit : State → Item → Checked (State × Bool))

theorem emitUntil_cons (state : State) (item : Item) (rest : List Item) :
    emitUntil emit state (item :: rest) =
      emit state item >>= fun answer => if answer.2 then emitUntil emit answer.1 rest else .ok (answer.1, false) := by
  rfl

theorem emitUntil_singleton (state : State) (item : Item) : emitUntil emit state [item] = emit state item := by
  rw [emitUntil_cons]
  cases emit state item with
  | error message => rfl
  | ok answer =>
    obtain ⟨after, more⟩ := answer
    cases more <;> rfl

theorem emitUntil_cons_finished (state after : State) (item : Item) (rest : List Item) :
    emitUntil emit state (item :: rest) = .ok (after, true) ↔
      ∃ middle, emit state item = .ok (middle, true) ∧ emitUntil emit middle rest = .ok (after, true) := by
  rw [emitUntil_cons, Checked.bind_ok_iff]
  constructor
  · rintro ⟨⟨middle, more⟩, answered, run⟩
    cases more with
    | false => cases run
    | true => exact ⟨middle, answered, run⟩
  · rintro ⟨middle, answered, run⟩
    exact ⟨(middle, true), answered, run⟩

theorem emitUntil_append_finished (first second : List Item) : ∀ state after,
    emitUntil emit state (first ++ second) = .ok (after, true) ↔
      ∃ middle, emitUntil emit state first = .ok (middle, true) ∧ emitUntil emit middle second = .ok (after, true) := by
  induction first with
  | nil => simp [emitUntil]
  | cons item rest ih =>
    simp only [List.cons_append, emitUntil_cons_finished, ih]
    grind

theorem emitUntil_accepts (accepts : ∀ state item, ∃ next, emit state item = .ok (next, true)) (items : List Item) : ∀ state,
    ∃ after, emitUntil emit state items = .ok (after, true) := by
  induction items with
  | nil => exact fun state => ⟨state, rfl⟩
  | cons item rest ih =>
    intro state
    obtain ⟨middle, answered⟩ := accepts state item
    obtain ⟨after, run⟩ := ih middle
    exact ⟨after, (emitUntil_cons_finished emit state after item rest).mpr ⟨middle, answered, run⟩⟩

theorem emitUntil_stops (before rest : List Item) (item : Item) (state middle after : State)
    (reached : emitUntil emit state before = .ok (middle, true)) (refused : emit middle item = .ok (after, false)) :
    emitUntil emit state (before ++ item :: rest) = .ok (after, false) := by
  induction before generalizing state with
  | nil =>
    cases reached
    rw [List.nil_append, emitUntil_cons, refused]
    rfl
  | cons first later ih =>
    obtain ⟨next, answered, run⟩ := (emitUntil_cons_finished emit state middle first later).mp reached
    rw [List.cons_append, emitUntil_cons, answered]
    exact ih next run

end

-- Greedy cutting of a row sequence into chunks: a chunk starts at a fixed number
-- of bytes, and a row that would pass the target opens the next chunk.
namespace Chunk

variable {Row : Type}

def loop (fixed target : Nat) (rowBytes : Row → Nat) : List Row → List Row → Nat → List (List Row × Nat)
  | [], chunk, bytes => if chunk = [] then [] else [(chunk, bytes)]
  | row :: rest, chunk, bytes =>
    if chunk ≠ [] ∧ bytes + rowBytes row > target then
      (chunk, bytes) :: loop fixed target rowBytes rest [row] (fixed + rowBytes row)
    else loop fixed target rowBytes rest (chunk ++ [row]) (bytes + rowBytes row)

def chunks (fixed target : Nat) (rowBytes : Row → Nat) (rows : List Row) : List (List Row × Nat) :=
  loop fixed target rowBytes rows [] fixed

section

variable (fixed target : Nat) (rowBytes : Row → Nat)

section

variable (rows : List Row)

theorem loop_flatten : ∀ chunk bytes,
    ((loop fixed target rowBytes rows chunk bytes).map Prod.fst).flatten = chunk ++ rows := by
  induction rows with
  | nil =>
    intro chunk bytes
    rw [loop]
    split <;> simp_all
  | cons row rest ih =>
    intro chunk bytes
    rw [loop]
    split
    · rw [List.map_cons, List.flatten_cons, ih]
      rfl
    · rw [ih, List.append_assoc]
      rfl

theorem loop_nonempty : ∀ chunk bytes,
    ∀ piece ∈ loop fixed target rowBytes rows chunk bytes, piece.1 ≠ [] := by
  induction rows with
  | nil =>
    intro chunk bytes
    rw [loop]
    split <;> simp_all
  | cons row rest ih =>
    intro chunk bytes
    rw [loop]
    split
    · rename_i cut
      intro piece member
      rcases List.mem_cons.mp member with rfl | later
      · exact cut.1
      · exact ih _ _ piece later
    · exact ih _ _

theorem loop_bytes : ∀ chunk bytes, bytes = fixed + (chunk.map rowBytes).sum →
    ∀ piece ∈ loop fixed target rowBytes rows chunk bytes, piece.2 = fixed + (piece.1.map rowBytes).sum := by
  induction rows with
  | nil =>
    intro chunk bytes exact
    rw [loop]
    split <;> simp_all
  | cons row rest ih =>
    intro chunk bytes exact
    rw [loop]
    split
    · intro piece member
      rcases List.mem_cons.mp member with rfl | later
      · exact exact
      · exact ih [row] _ (by simp) piece later
    · exact ih _ _ (by simp [exact]; omega)

theorem loop_within (fits : ∀ row ∈ rows, fixed + rowBytes row ≤ target) : ∀ chunk bytes,
    bytes ≤ target → (chunk = [] → bytes = fixed) →
    ∀ piece ∈ loop fixed target rowBytes rows chunk bytes, piece.2 ≤ target := by
  induction rows with
  | nil =>
    intro chunk bytes within _
    rw [loop]
    split <;> simp_all
  | cons row rest ih =>
    have here := fits row List.mem_cons_self
    have later : ∀ other ∈ rest, fixed + rowBytes other ≤ target := fun other member =>
      fits other (List.mem_cons_of_mem _ member)
    intro chunk bytes within start
    rw [loop]
    split
    · intro piece member
      rcases List.mem_cons.mp member with rfl | rest
      · exact within
      · exact ih later [row] _ here (by simp) piece rest
    · rename_i room
      refine ih later _ _ ?_ (by simp)
      rcases Decidable.em (chunk = []) with empty | some
      · rw [start empty]
        exact here
      · exact Nat.le_of_not_gt fun exceeds => room ⟨some, exceeds⟩

theorem loop_sizes : ∀ chunk bytes,
    loop fixed target id (rows.map rowBytes) (chunk.map rowBytes) bytes =
      (loop fixed target rowBytes rows chunk bytes).map fun piece => (piece.1.map rowBytes, piece.2) := by
  induction rows with
  | nil =>
    intro chunk bytes
    simp only [List.map_nil, loop, List.map_eq_nil_iff]
    split <;> simp
  | cons row rest ih =>
    intro chunk bytes
    simp only [List.map_cons, loop, ne_eq, List.map_eq_nil_iff, id_eq]
    split
    · have next := ih [row] (fixed + rowBytes row)
      simp only [List.map_cons, List.map_nil] at next
      simp [next]
    · have next := ih (chunk ++ [row]) (bytes + rowBytes row)
      simpa using next

end

theorem loop_count (rowMax : Nat) (rows : List Row) (bounded : ∀ row ∈ rows, rowBytes row ≤ rowMax) : ∀ chunk bytes,
    bytes = fixed + (chunk.map rowBytes).sum →
    (loop fixed target rowBytes rows chunk bytes).length * (target - fixed - rowMax) ≤
      (chunk.map rowBytes).sum + (rows.map rowBytes).sum + (target - fixed - rowMax) := by
  induction rows with
  | nil =>
    intro chunk bytes _
    rw [loop]
    split <;> simp
  | cons row rest ih =>
    have here := bounded row List.mem_cons_self
    have later : ∀ other ∈ rest, rowBytes other ≤ rowMax := fun other member =>
      bounded other (List.mem_cons_of_mem _ member)
    intro chunk bytes exact
    rw [loop]
    split
    · have next := ih later [row] (fixed + rowBytes row) (by simp)
      simp only [List.map_cons, List.map_nil, List.sum_cons, List.sum_nil, Nat.add_zero] at next
      rw [List.length_cons, Nat.add_mul, Nat.one_mul, List.map_cons, List.sum_cons]
      omega
    · have next := ih later (chunk ++ [row]) (bytes + rowBytes row) (by simp [exact]; omega)
      simp only [List.map_append, List.map_cons, List.map_nil, List.sum_append, List.sum_cons, List.sum_nil,
        Nat.add_zero] at next
      rw [List.map_cons, List.sum_cons]
      omega

def Full (piece next : List Row × Nat) : Prop := ∃ row more, next.1 = row :: more ∧ target < piece.2 + rowBytes row

section

variable (rows : List Row)

theorem loop_head : ∀ row chunk bytes,
    ∃ more bytes' rest, loop fixed target rowBytes rows (row :: chunk) bytes = (row :: more, bytes') :: rest := by
  induction rows with
  | nil => exact fun row chunk bytes => ⟨chunk, bytes, [], rfl⟩
  | cons next rest ih =>
    intro row chunk bytes
    rw [loop]
    split
    · exact ⟨chunk, bytes, _, rfl⟩
    · exact ih row (chunk ++ [next]) _

theorem loop_full : ∀ chunk bytes,
    List.IsChain (Full target rowBytes) (loop fixed target rowBytes rows chunk bytes) := by
  induction rows with
  | nil =>
    intro chunk bytes
    rw [loop]
    split <;> simp
  | cons row rest ih =>
    intro chunk bytes
    rw [loop]
    split
    · rename_i cut
      obtain ⟨more, _, later, opened⟩ := loop_head fixed target rowBytes rest row [] (fixed + rowBytes row)
      have chain := ih [row] (fixed + rowBytes row)
      rw [opened] at chain ⊢
      exact List.isChain_cons_cons.mpr ⟨⟨row, more, rfl, cut.2⟩, chain⟩
    · exact ih _ _

theorem chunks_full : List.IsChain (Full target rowBytes) (chunks fixed target rowBytes rows) :=
  loop_full fixed target rowBytes rows [] fixed

theorem chunks_flatten : ((chunks fixed target rowBytes rows).map Prod.fst).flatten = rows :=
  loop_flatten fixed target rowBytes rows [] fixed

theorem chunks_nonempty : ∀ piece ∈ chunks fixed target rowBytes rows, piece.1 ≠ [] :=
  loop_nonempty fixed target rowBytes rows [] fixed

theorem chunks_bytes : ∀ piece ∈ chunks fixed target rowBytes rows, piece.2 = fixed + (piece.1.map rowBytes).sum :=
  loop_bytes fixed target rowBytes rows [] fixed rfl

theorem chunks_within (least : fixed ≤ target) (fits : ∀ row ∈ rows, fixed + rowBytes row ≤ target) :
    ∀ piece ∈ chunks fixed target rowBytes rows, piece.2 ≤ target :=
  loop_within fixed target rowBytes rows fits [] fixed least (fun _ => rfl)

theorem chunks_sizes :
    chunks fixed target id (rows.map rowBytes) =
      (chunks fixed target rowBytes rows).map fun piece => (piece.1.map rowBytes, piece.2) :=
  loop_sizes fixed target rowBytes rows [] fixed

end

theorem chunks_count (rowMax : Nat) (rows : List Row) (bounded : ∀ row ∈ rows, rowBytes row ≤ rowMax) :
    (chunks fixed target rowBytes rows).length * (target - fixed - rowMax) ≤
      (rows.map rowBytes).sum + (target - fixed - rowMax) := by
  have count := loop_count fixed target rowBytes rowMax rows bounded [] fixed rfl
  simpa [chunks] using count

theorem chunks_total (rows : List Row) :
    ((chunks fixed target rowBytes rows).map Prod.snd).sum =
      (chunks fixed target rowBytes rows).length * fixed + (rows.map rowBytes).sum := by
  have exact := chunks_bytes fixed target rowBytes rows
  have whole := chunks_flatten fixed target rowBytes rows
  generalize chunks fixed target rowBytes rows = pieces at exact whole
  rw [← whole]
  clear whole
  induction pieces with
  | nil => simp
  | cons piece rest ih =>
    have later := ih fun other member => exact other (List.mem_cons_of_mem _ member)
    rw [List.map_cons, List.sum_cons, later, exact piece List.mem_cons_self]
    simp only [List.length_cons, List.map_cons, List.flatten_cons, List.map_append, List.sum_append, Nat.add_mul, Nat.one_mul]
    omega

end

end Chunk
