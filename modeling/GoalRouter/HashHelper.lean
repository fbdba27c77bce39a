import GoalRouter.Library.IntegerText
import GoalRouter.Library.Program
import GoalRouter.RepositoryEvidence

namespace GoalRouter
open Library
set_option autoImplicit true

def HashAlgorithm.name : HashAlgorithm → Text
  | .sha1 => text "sha1"
  | .sha256 => text "sha256"

/-- The digest objects of `hashlib`. Feeding one in pieces is feeding it what they make together,
and what it prints is ASCII. -/
structure DigestObject where
  State : Type
  new : HashAlgorithm → State
  update : State → Bytes → State
  hexdigest : State → Text
  update_append : ∀ state a b, update (update state a) b = update state (a ++ b)
  hexdigest_ascii : ∀ state, ∀ c ∈ hexdigest state, isAscii c = true

/-- `f"blob {size}\0".encode("ascii")` -/
def blobHeader (size : Nat) : Bytes := asciiBytes (text "blob " ++ decimal size ++ [0])

namespace DigestObject

variable (d : DigestObject)

/-- `_hash_git_blob` -/
def gitBlob (algorithm : HashAlgorithm) (content : Bytes) : Text :=
  d.hexdigest (d.update (d.update (d.new algorithm) (blobHeader content.length)) content)

/-- What a digest prints for some data. -/
def digestOf (algorithm : HashAlgorithm) (data : Bytes) : Text :=
  d.hexdigest (d.update (d.new algorithm) data)

theorem gitBlob_eq (algorithm : HashAlgorithm) (content : Bytes) :
    d.gitBlob algorithm content = hashGitBlob d.digestOf algorithm content := by
  rw [gitBlob, hashGitBlob, digestOf, d.update_append]
  rfl

end DigestObject

inductive HelperCall where
  | read (descriptor count : Nat)
  | write (data : Bytes)

/-- No more is read than was asked for, and no more is written than was given. -/
def HelperVal : HelperCall → Type
  | .read _ count => { chunk : Bytes // chunk.length ≤ count }
  | .write data => { count : Nat // count ≤ data.length }

abbrev HelperProgram (α : Type) := Prog HelperVal PyError α

def readChunkBytes : Nat := 64 * 1024

def batchMax : Nat := 64

/-- The algorithms that `_digest` knows. -/
def parseAlgorithm (algorithm : Text) : Option HashAlgorithm :=
  if algorithm = text "sha1" then some .sha1
  else if algorithm = text "sha256" then some .sha256
  else none

/-- `while remaining`: the digest fed with what is read, `none` where the file ends before. -/
def readRemaining (d : DigestObject) (descriptor remaining : Nat) (state : d.State) :
    HelperProgram (Option d.State) :=
  if remaining = 0 then .pure (some state)
  else .call (.read descriptor (min remaining readChunkBytes)) fun
    | .error e => .throw e
    | .ok chunk =>
      if chunk.val = [] then .pure none
      else readRemaining d descriptor (remaining - chunk.val.length) (d.update state chunk.val)
termination_by remaining
decreasing_by
  have := List.length_pos_of_ne_nil ‹chunk.val ≠ []›
  omega

def newlineByte : UInt8 := 10

/-- The lines of the requests, `none` where a file ends before its size. -/
def hashRequests (d : DigestObject) (algorithm : Text) :
    List (Nat × Nat) → Bytes → HelperProgram (Option Bytes)
  | [], output => .pure (some output)
  | (descriptor, size) :: requests, output =>
    match parseAlgorithm algorithm with
    | none => .throw ⟨.valueError, text "unsupported object format"⟩
    | some known => do
      let digest := d.update (d.new known) (blobHeader size)
      match ← readRemaining d descriptor size digest with
      | none => return none
      | some digest =>
        hashRequests d algorithm requests
          (output ++ (asciiBytes (d.hexdigest digest) ++ [newlineByte]))

/-- `while written < len(output)`, false where nothing more is written. -/
def writeOutput (output : Bytes) (written : Nat) : HelperProgram Bool :=
  if written < output.length then
    .call (.write (output.drop written)) fun
      | .error e => .throw e
      | .ok count =>
        if count.val = 0 then .pure false else writeOutput output (written + count.val)
  else .pure true
termination_by output.length - written

/-- The descriptors and sizes after the algorithm. -/
def parseRequests : List Text → Option (List (Int × Int))
  | [] => some []
  | [_] => none
  | descriptor :: size :: values => do
    let descriptor ← parseInteger descriptor
    let size ← parseInteger size
    let requests ← parseRequests values
    return (descriptor, size) :: requests

/-- The exceptions that `main` answers with exit code 2. -/
def PyError.isCaught (e : PyError) : Bool :=
  e.kind = .valueError || e.kind = .other (text "OSError") || e.kind = .other (text "TypeError")

/-- The body of `main` once the number of values is right. -/
def hashBatch (d : DigestObject) (algorithm : Text) (values : List Text) : HelperProgram Nat :=
  match parseRequests values with
  | none => .throw ⟨.valueError, text "invalid literal for int() with base 10"⟩
  | some requests =>
    if requests.length > batchMax ∨ ¬(requests.map Prod.fst).Nodup ∨
        requests.any (fun request => request.1 < 0 || request.2 < 0) then .pure 2
    else do
      let requests := requests.map fun request => (request.1.toNat, request.2.toNat)
      match ← hashRequests d algorithm requests [] with
      | none => return 3
      | some output => if ← writeOutput output 0 then return 0 else return 4

namespace HashHelper

def main (d : DigestObject) (values : List Text) : HelperProgram Nat :=
  match values with
  | [] => .pure 2
  | algorithm :: requests =>
    if values.length < 3 ∨ values.length % 2 = 0 then .pure 2
    else do
      match ← (hashBatch d algorithm requests).attempt with
      | .ok code => return code
      | .error e => if e.isCaught then return 2 else .throw e

end HashHelper

/-- What is left to read of each open descriptor, and what was written. -/
structure HelperWorld where
  unread : Nat → Option Bytes
  stdout : Bytes

/-- A read gives some of what is left, nothing only at the end; a write takes some of its data. -/
inductive HelperNext : Prog.Answers HelperVal PyError HelperWorld
  | read {w : HelperWorld} {chunk rest : Bytes} (hw : w.unread descriptor = some (chunk ++ rest))
      (hc : chunk.length ≤ count) (hn : chunk = [] → rest = [] ∨ count = 0) :
      HelperNext w (.read descriptor count) (.ok ⟨chunk, hc⟩)
        { w with unread := Function.update w.unread descriptor (some rest) }
  | unopened {w : HelperWorld} (hw : w.unread descriptor = none) :
      HelperNext w (.read descriptor count) (.error (osError "Bad file descriptor")) w
  | write {w : HelperWorld} (hn : 0 < count ∨ data = []) (hc : count ≤ data.length) :
      HelperNext w (.write data) (.ok ⟨count, hc⟩) { w with stdout := w.stdout ++ data.take count }

namespace HelperWorld

/-- The world when that much of a file is left to read. -/
def left (w : HelperWorld) (descriptor : Nat) (rest : Bytes) : HelperWorld :=
  { w with unread := Function.update w.unread descriptor (some rest) }

@[simp] theorem left_stdout (w : HelperWorld) (descriptor : Nat) (rest : Bytes) :
    (w.left descriptor rest).stdout = w.stdout := rfl

theorem left_unread (w : HelperWorld) (descriptor : Nat) (rest : Bytes) :
    (w.left descriptor rest).unread descriptor = some rest :=
  Function.update_self ..

theorem left_unread_of_ne {w : HelperWorld} {rest : Bytes} (h : other ≠ descriptor) :
    (w.left descriptor rest).unread other = w.unread other :=
  Function.update_of_ne h ..

theorem left_of_unread {w : HelperWorld} {rest : Bytes} (h : w.unread descriptor = some rest) :
    w.left descriptor rest = w := by
  rw [left, ← h, Function.update_eq_self]

theorem left_left (w : HelperWorld) (descriptor : Nat) (rest rest' : Bytes) :
    (w.left descriptor rest).left descriptor rest' = w.left descriptor rest' := by
  rw [left, left, left, Function.update_idem]

end HelperWorld

theorem helperNext_total (w : HelperWorld) (c : HelperCall) : ∃ r w', HelperNext w c r w' := by
  cases c with
  | read descriptor count =>
    cases hw : w.unread descriptor with
    | none => exact ⟨_, _, .unopened hw⟩
    | some data =>
      cases count with
      | zero => exact ⟨_, _, @HelperNext.read _ _ _ [] data hw (Nat.le_refl 0) fun _ => .inr rfl⟩
      | succ count =>
        cases data with
        | nil => exact ⟨_, _, @HelperNext.read _ _ _ [] [] hw (Nat.zero_le _) fun _ => .inl rfl⟩
        | cons byte data =>
          exact ⟨_, _, @HelperNext.read _ _ _ [byte] data hw (Nat.succ_le_succ (Nat.zero_le _))
            fun h => absurd h (List.cons_ne_nil _ _)⟩
  | write data =>
    cases data with
    | nil => exact ⟨_, _, .write (.inr rfl) (Nat.le_refl 0)⟩
    | cons byte data =>
      have hc : 1 ≤ (byte :: data).length := Nat.le_add_left 1 data.length
      exact ⟨_, _, .write (.inl Nat.one_pos) hc⟩

/-- A program run by the helper ends so, without raising. -/
abbrev HelperEnds (p : HelperProgram α) (w : HelperWorld) (Q : α → HelperWorld → Prop) : Prop :=
  p.Safe HelperNext (fun _ => True) Q (fun _ _ => False) w

section Reading

variable {d : DigestObject} {w : HelperWorld} {data rest : Bytes}

theorem split_chunk {chunk left : Bytes} (h : chunk ++ left = data ++ rest)
    (hc : chunk.length ≤ data.length) : ∃ data', data = chunk ++ data' ∧ left = data' ++ rest := by
  obtain ⟨data', hd, hl⟩ | ⟨more, hd, hr⟩ := List.append_eq_append_iff.1 h
  · exact ⟨data', hd, hl⟩
  · have hmore : more = [] := by
      rw [hd, List.length_append] at hc
      exact List.eq_nil_of_length_eq_zero (by omega)
    subst hmore
    rw [List.append_nil] at hd
    exact ⟨[], by rw [List.append_nil, hd], hr.symm⟩

/-- However the reads are split, the digest is fed all of the data, and no more is read. -/
theorem readRemaining_ends {n : Nat} (hn : data.length = n)
    (hw : w.unread descriptor = some (data ++ rest)) (state : d.State) (fed : Bytes) :
    HelperEnds (readRemaining d descriptor n (d.update state fed)) w fun r w' =>
      r = some (d.update state (fed ++ data)) ∧ w' = w.left descriptor rest := by
  induction n using Nat.strong_induction_on generalizing data fed w with
  | _ n ih =>
    rw [readRemaining]
    by_cases hzero : n = 0
    · have hdata : data = [] := List.eq_nil_of_length_eq_zero (hn.trans hzero)
      subst hdata
      rw [if_pos hzero, List.append_nil]
      exact ⟨rfl, (HelperWorld.left_of_unread hw).symm⟩
    · rw [if_neg hzero]
      intro r w' hnext
      refine ⟨trivial, ?_⟩
      cases hnext with
      | unopened hnone => rw [hw] at hnone; cases hnone
      | @read _ _ _ chunk left hleft hc hnil =>
        have hle : chunk.length ≤ n := hc.trans (Nat.min_le_left ..)
        obtain ⟨data', rfl, rfl⟩ := split_chunk (Option.some.inj (hleft.symm.trans hw)) (hn ▸ hle)
        rw [List.length_append] at hn
        have hchunk : chunk ≠ [] := by
          intro hempty
          subst hempty
          obtain hend | hend := hnil rfl
          · rw [(List.append_eq_nil_iff.1 hend).1] at hn
            exact hzero hn.symm
          · rw [Nat.min_eq_zero_iff] at hend
            exact hend.elim hzero (by decide)
        have hpos := List.length_pos_of_ne_nil hchunk
        dsimp only
        rw [if_neg hchunk, d.update_append]
        apply (ih (n - chunk.length) (by omega) (by omega) (HelperWorld.left_unread ..) _).mono
        · rintro r w' ⟨rfl, rfl⟩
          exact ⟨by rw [List.append_assoc], HelperWorld.left_left ..⟩
        · exact fun _ _ h => h

theorem readRemaining_short {n : Nat} (hn : data.length < n) (hw : w.unread descriptor = some data)
    (state : d.State) :
    HelperEnds (readRemaining d descriptor n state) w fun r _ => r = none := by
  induction n using Nat.strong_induction_on generalizing data state w with
  | _ n ih =>
    rw [readRemaining, if_neg (by omega)]
    intro r w' hnext
    refine ⟨trivial, ?_⟩
    cases hnext with
    | unopened hnone => rw [hw] at hnone; cases hnone
    | @read _ _ _ chunk left hleft hc hnil =>
      cases Option.some.inj (hleft.symm.trans hw)
      rw [List.length_append] at hn
      by_cases hchunk : chunk = []
      · dsimp only
        rw [if_pos hchunk]
        exact rfl
      · have hpos := List.length_pos_of_ne_nil hchunk
        dsimp only
        rw [if_neg hchunk]
        exact ih (n - chunk.length) (by omega) (by omega) (HelperWorld.left_unread ..) _

end Reading

section Output

variable {d : DigestObject} {w : HelperWorld}

/-- The line of a request: the blob id of the first bytes of the file. -/
def requestLine (d : DigestObject) (algorithm : HashAlgorithm) (unread : Nat → Option Bytes)
    (request : Nat × Nat) : Bytes :=
  asciiBytes (d.gitBlob algorithm (((unread request.1).getD []).take request.2)) ++ [newlineByte]

theorem parseAlgorithm_name (algorithm : HashAlgorithm) :
    parseAlgorithm algorithm.name = some algorithm := by
  cases algorithm <;> decide

theorem digest_line (algorithm : HashAlgorithm) {content : Bytes} {size : Nat}
    (h : size ≤ content.length) :
    d.hexdigest (d.update (d.new algorithm) (blobHeader size ++ content.take size)) =
      d.gitBlob algorithm (content.take size) := by
  rw [DigestObject.gitBlob, d.update_append, List.length_take, Nat.min_eq_left h]

/-- The requests that are left see the files as they were: their descriptors are others. -/
theorem unread_of_left {requests : List (Nat × Nat)} {rest : Bytes}
    (hn : descriptor ∉ requests.map Prod.fst) {request : Nat × Nat} (hm : request ∈ requests) :
    (w.left descriptor rest).unread request.1 = w.unread request.1 :=
  HelperWorld.left_unread_of_ne fun he => hn (he ▸ List.mem_map_of_mem hm)

theorem hashRequests_ends (algorithm : HashAlgorithm) {requests : List (Nat × Nat)}
    (hn : (requests.map Prod.fst).Nodup)
    (hfull : ∀ request ∈ requests, ∃ content, w.unread request.1 = some content ∧
      request.2 ≤ content.length) (output : Bytes) :
    HelperEnds (hashRequests d algorithm.name requests output) w fun r w' =>
      r = some (output ++ requests.flatMap (requestLine d algorithm w.unread)) ∧
        w'.stdout = w.stdout := by
  induction requests generalizing output w with
  | nil => exact ⟨by rw [List.flatMap_nil, List.append_nil], rfl⟩
  | cons request requests ih =>
    obtain ⟨descriptor, size⟩ := request
    obtain ⟨content, hw, hsize⟩ := hfull _ List.mem_cons_self
    rw [List.map_cons, List.nodup_cons] at hn
    rw [hashRequests, parseAlgorithm_name]
    have hlen : (content.take size).length = size := by
      rw [List.length_take, Nat.min_eq_left hsize]
    have hsplit : w.unread descriptor = some (content.take size ++ content.drop size) := by
      rw [List.take_append_drop]
      exact hw
    apply (readRemaining_ends hlen hsplit (d.new algorithm) (blobHeader size)).bind
    rintro _ _ ⟨rfl, rfl⟩
    dsimp only
    rw [digest_line algorithm hsize]
    have hothers : ∀ request ∈ requests, ∃ content', (w.left descriptor (content.drop size)).unread
        request.1 = some content' ∧ request.2 ≤ content'.length := by
      intro request hm
      rw [unread_of_left hn.1 hm]
      exact hfull request (List.mem_cons_of_mem _ hm)
    apply (ih hn.2 hothers _).mono
    · rintro r w' ⟨rfl, hout⟩
      refine ⟨?_, hout⟩
      have hlines : requests.flatMap (requestLine d algorithm
          (w.left descriptor (content.drop size)).unread) =
          requests.flatMap (requestLine d algorithm w.unread) := by
        apply List.flatMap_congr
        intro request hm
        rw [requestLine, requestLine, unread_of_left hn.1 hm]
      rw [hlines, List.flatMap_cons, requestLine, hw, Option.getD_some]
      simp only [List.append_assoc]
    · exact fun _ _ h => h

theorem hashRequests_short (algorithm : HashAlgorithm) {requests : List (Nat × Nat)}
    (hn : (requests.map Prod.fst).Nodup)
    (hopen : ∀ request ∈ requests, ∃ content, w.unread request.1 = some content)
    (hshort : ∃ request ∈ requests, ∃ content, w.unread request.1 = some content ∧
      content.length < request.2) (output : Bytes) :
    HelperEnds (hashRequests d algorithm.name requests output) w fun r _ => r = none := by
  induction requests generalizing output w with
  | nil =>
    obtain ⟨_, hm, -⟩ := hshort
    exact absurd hm List.not_mem_nil
  | cons request requests ih =>
    obtain ⟨descriptor, size⟩ := request
    obtain ⟨content, hw⟩ := hopen _ List.mem_cons_self
    rw [List.map_cons, List.nodup_cons] at hn
    rw [hashRequests, parseAlgorithm_name]
    by_cases hsize : content.length < size
    · apply (readRemaining_short hsize hw _).bind
      rintro _ _ rfl
      exact rfl
    · rw [Nat.not_lt] at hsize
      have hlen : (content.take size).length = size := by
        rw [List.length_take, Nat.min_eq_left hsize]
      have hsplit : w.unread descriptor = some (content.take size ++ content.drop size) := by
        rw [List.take_append_drop]
        exact hw
      apply (readRemaining_ends hlen hsplit (d.new algorithm) (blobHeader size)).bind
      rintro _ _ ⟨rfl, rfl⟩
      apply ih hn.2
      · intro request hm
        rw [unread_of_left hn.1 hm]
        exact hopen request (List.mem_cons_of_mem _ hm)
      · obtain ⟨request, hm, content', hw', hlt⟩ := hshort
        rcases List.mem_cons.1 hm with rfl | hm
        · rw [hw] at hw'
          cases hw'
          exact absurd hlt (Nat.not_lt.2 hsize)
        · refine ⟨request, hm, content', ?_, hlt⟩
          rw [unread_of_left hn.1 hm]
          exact hw'

theorem writeOutput_ends {output : Bytes} {written : Nat} (h : written ≤ output.length) :
    HelperEnds (writeOutput output written) w fun b w' =>
      b = true ∧ w'.stdout = w.stdout ++ output.drop written := by
  induction hn : output.length - written using Nat.strong_induction_on generalizing written w with
  | _ n ih =>
    rw [writeOutput]
    by_cases hlt : written < output.length
    · rw [if_pos hlt]
      intro r w' hnext
      refine ⟨trivial, ?_⟩
      cases hnext with
      | @write count _ _ hcount hc =>
        have hpos : 0 < count := by
          rcases hcount with hpos | hnil
          · exact hpos
          · rw [List.drop_eq_nil_iff] at hnil
            omega
        rw [List.length_drop] at hc
        dsimp only
        rw [if_neg (Nat.ne_of_gt hpos)]
        apply (ih _ (by omega) (by omega) rfl).mono
        · rintro b w' ⟨rfl, hout⟩
          refine ⟨rfl, ?_⟩
          rw [hout, List.append_assoc, ← List.drop_drop, List.take_append_drop]
        · exact fun _ _ h => h
    · rw [if_neg hlt]
      have hend : output.drop written = [] := List.drop_eq_nil_iff.2 (Nat.le_of_not_lt hlt)
      exact ⟨rfl, by rw [hend, List.append_nil]⟩

end Output

/-- A request for the first bytes of a file: a C `int` and an `off_t`, neither negative. -/
structure HelperRequest where
  descriptor : Nat
  size : Nat
  descriptor_lt : descriptor < 2 ^ 31
  size_lt : size < 2 ^ 63

namespace HelperRequest

def arguments (request : HelperRequest) : List Text :=
  [decimal request.descriptor, decimal request.size]

def pair (request : HelperRequest) : Nat × Nat := (request.descriptor, request.size)

end HelperRequest

/-- The arguments that `hash_descriptors` starts its helper with. -/
def helperArguments (algorithm : HashAlgorithm) (requests : List HelperRequest) : List Text :=
  algorithm.name :: requests.flatMap HelperRequest.arguments

section Arguments

theorem parseInteger_decimal {n : Nat} (h : n < 2 ^ 63) :
    parseInteger (decimal n) = some (n : Int) := by
  have hdigits : 19 ≤ maxIntegerDigits := by decide
  have hmax : 2 ^ 63 ≤ 10 ^ maxIntegerDigits :=
    (by decide : 2 ^ 63 ≤ 10 ^ 19).trans (Nat.pow_le_pow_right (by decide) hdigits)
  exact parseInteger_repr (h.trans_le hmax)

theorem parseRequests_arguments (requests : List HelperRequest) :
    parseRequests (requests.flatMap HelperRequest.arguments) =
      some (requests.map fun request => ((request.descriptor : Int), (request.size : Int))) := by
  induction requests with
  | nil => rfl
  | cons request requests ih =>
    have hd : request.descriptor < 2 ^ 63 := request.descriptor_lt.trans (by decide)
    rw [List.flatMap_cons, HelperRequest.arguments, List.cons_append, List.cons_append,
      List.nil_append, parseRequests, parseInteger_decimal hd,
      parseInteger_decimal request.size_lt, ih]
    rfl

theorem length_helperArguments (algorithm : HashAlgorithm) (requests : List HelperRequest) :
    (helperArguments algorithm requests).length = 2 * requests.length + 1 := by
  rw [helperArguments, List.length_cons]
  induction requests with
  | nil => rfl
  | cons request requests ih =>
    rw [List.flatMap_cons, List.length_append, List.length_cons]
    simp only [HelperRequest.arguments, List.length_cons, List.length_nil]
    omega

theorem hashBatch_arguments (d : DigestObject) (algorithm : Text) {requests : List HelperRequest}
    (hmax : requests.length ≤ batchMax)
    (hn : (requests.map HelperRequest.descriptor).Nodup) :
    hashBatch d algorithm (requests.flatMap HelperRequest.arguments) = do
      match ← hashRequests d algorithm (requests.map HelperRequest.pair) [] with
      | none => return 3
      | some output => if ← writeOutput output 0 then return 0 else return 4 := by
  have hvalid : ¬((requests.map fun request =>
        ((request.descriptor : Int), (request.size : Int))).length > batchMax ∨
      ¬((requests.map fun request =>
        ((request.descriptor : Int), (request.size : Int))).map Prod.fst).Nodup ∨
      (requests.map fun request => ((request.descriptor : Int), (request.size : Int))).any
        (fun request => request.1 < 0 || request.2 < 0)) := by
    rw [List.length_map, List.map_map, not_or, not_or, not_not]
    refine ⟨Nat.not_lt.2 hmax, ?_, ?_⟩
    · have hinj : Function.Injective fun n : Nat => (n : Int) := fun _ _ h => Int.ofNat.inj h
      have hmap := hn.map hinj
      rwa [List.map_map] at hmap
    · simp
  have hpairs : (requests.map fun request => ((request.descriptor : Int), (request.size : Int))).map
      (fun request => (request.1.toNat, request.2.toNat)) = requests.map HelperRequest.pair := by
    rw [List.map_map]
    rfl
  simp only [hashBatch, parseRequests_arguments, if_neg hvalid, hpairs]

theorem main_arguments (d : DigestObject) (algorithm : HashAlgorithm)
    {requests : List HelperRequest} (hne : requests ≠ []) :
    HashHelper.main d (helperArguments algorithm requests) =
      ((hashBatch d algorithm.name (requests.flatMap HelperRequest.arguments)).attempt >>= fun
        | .ok code => pure code
        | .error e => if e.isCaught then pure 2 else .throw e) := by
  have hlen := length_helperArguments algorithm requests
  have hpos := List.length_pos_of_ne_nil hne
  rw [helperArguments] at hlen ⊢
  have hcount : ¬((algorithm.name :: requests.flatMap HelperRequest.arguments).length < 3 ∨
      (algorithm.name :: requests.flatMap HelperRequest.arguments).length % 2 = 0) := by
    omega
  exact if_neg hcount

end Arguments

/-- In every execution the program goes on until it exits, and exits so. -/
def Exits (p : HelperProgram Nat) (w : HelperWorld) (Q : Nat → HelperWorld → Prop) : Prop :=
  ∀ q w', Prog.Steps HelperNext p w q w' →
    (∃ q' w'', Prog.Steps HelperNext q w' q' w'' ∧ q'.outcome?.isSome) ∧
    ∀ x, q.outcome? = some x → ∃ code, x = .ok code ∧ Q code w'

/-- The requested part of every file is there. -/
def AllFull (w : HelperWorld) (requests : List HelperRequest) : Prop :=
  ∀ request ∈ requests, request.size ≤ ((w.unread request.descriptor).getD []).length

theorem exits_of_ends {p : HelperProgram Nat} {w : HelperWorld} {Q : Nat → HelperWorld → Prop}
    (h : HelperEnds p w Q) : Exits p w Q := by
  intro q w' hs
  refine ⟨Prog.exists_end helperNext_total q w', fun x hx => ?_⟩
  have hend := h.ends trivial hs hx
  cases x with
  | ok code => exact ⟨code, rfl, hend⟩
  | error e => exact hend.elim

/-- The exit code is the body's, which does not raise. -/
theorem main_ends {d : DigestObject} {algorithm : HashAlgorithm} {requests : List HelperRequest}
    {w : HelperWorld} {Q : Nat → HelperWorld → Prop} (hne : requests ≠ [])
    (h : HelperEnds (hashBatch d algorithm.name (requests.flatMap HelperRequest.arguments)) w Q) :
    HelperEnds (HashHelper.main d (helperArguments algorithm requests)) w Q := by
  rw [main_arguments d algorithm hne]
  apply h.attempt_bind
  intro r w' hr
  cases r with
  | ok code => exact hr
  | error e => exact hr.elim

theorem hashBatch_full {d : DigestObject} (algorithm : HashAlgorithm)
    {requests : List HelperRequest} {w : HelperWorld} (hmax : requests.length ≤ batchMax)
    (hn : (requests.map HelperRequest.descriptor).Nodup)
    (hopen : ∀ request ∈ requests, (w.unread request.descriptor).isSome)
    (hfull : AllFull w requests) :
    HelperEnds (hashBatch d algorithm.name (requests.flatMap HelperRequest.arguments)) w
      fun code w' =>
      code = 0 ∧ w'.stdout = w.stdout ++
        (requests.map HelperRequest.pair).flatMap (requestLine d algorithm w.unread) := by
  rw [hashBatch_arguments d algorithm.name hmax hn]
  have hpairs : ((requests.map HelperRequest.pair).map Prod.fst).Nodup := by
    rw [List.map_map]
    exact hn
  have hfiles : ∀ pair ∈ requests.map HelperRequest.pair, ∃ content,
      w.unread pair.1 = some content ∧ pair.2 ≤ content.length := by
    intro pair hm
    obtain ⟨request, hr, rfl⟩ := List.mem_map.1 hm
    obtain ⟨content, hw⟩ := Option.isSome_iff_exists.1 (hopen request hr)
    have hle := hfull request hr
    rw [hw, Option.getD_some] at hle
    exact ⟨content, hw, hle⟩
  apply (hashRequests_ends algorithm hpairs hfiles []).bind
  rintro _ w' ⟨rfl, hout⟩
  dsimp only
  rw [List.nil_append]
  apply (writeOutput_ends (Nat.zero_le _)).bind
  rintro _ w'' ⟨rfl, hout'⟩
  exact ⟨rfl, by rw [hout', hout, List.drop_zero]⟩

theorem hashBatch_short {d : DigestObject} (algorithm : HashAlgorithm)
    {requests : List HelperRequest} {w : HelperWorld} (hmax : requests.length ≤ batchMax)
    (hn : (requests.map HelperRequest.descriptor).Nodup)
    (hopen : ∀ request ∈ requests, (w.unread request.descriptor).isSome)
    (hshort : ¬AllFull w requests) :
    HelperEnds (hashBatch d algorithm.name (requests.flatMap HelperRequest.arguments)) w
      fun code _ => code = 3 := by
  rw [hashBatch_arguments d algorithm.name hmax hn]
  have hpairs : ((requests.map HelperRequest.pair).map Prod.fst).Nodup := by
    rw [List.map_map]
    exact hn
  have hfiles : ∀ pair ∈ requests.map HelperRequest.pair, ∃ content,
      w.unread pair.1 = some content := by
    intro pair hm
    obtain ⟨request, hr, rfl⟩ := List.mem_map.1 hm
    exact Option.isSome_iff_exists.1 (hopen request hr)
  have hends : ∃ pair ∈ requests.map HelperRequest.pair, ∃ content,
      w.unread pair.1 = some content ∧ content.length < pair.2 := by
    simp only [AllFull, not_forall, Nat.not_le] at hshort
    obtain ⟨request, hr, hlt⟩ := hshort
    obtain ⟨content, hw⟩ := Option.isSome_iff_exists.1 (hopen request hr)
    rw [hw, Option.getD_some] at hlt
    exact ⟨request.pair, List.mem_map_of_mem hr, content, hw, hlt⟩
  apply (hashRequests_short algorithm hpairs hfiles hends []).bind
  rintro _ w' rfl
  exact rfl

theorem hashBatch_doubled {d : DigestObject} {algorithm : Text} {requests : List HelperRequest}
    {w : HelperWorld} (hn : ¬(requests.map HelperRequest.descriptor).Nodup) :
    HelperEnds (hashBatch d algorithm (requests.flatMap HelperRequest.arguments)) w
      fun code _ => code = 2 := by
  have hdoubled : ¬((requests.map fun request =>
      ((request.descriptor : Int), (request.size : Int))).map Prod.fst).Nodup := by
    intro h
    rw [List.map_map] at h
    apply hn
    have hmap : (requests.map HelperRequest.descriptor).map (fun n : Nat => (n : Int)) =
        requests.map (Prod.fst ∘ fun request =>
          ((request.descriptor : Int), (request.size : Int))) :=
      List.map_map ..
    rw [← hmap] at h
    exact h.of_map _
  simp only [hashBatch, parseRequests_arguments]
  rw [if_pos (.inr (.inl hdoubled))]
  exact rfl

/-- However reads and writes are split, the helper exits with 0 and the blob ids in the order of
the requests if every file is long enough, and fails if one is not. -/
theorem hash_helper_exits (d : DigestObject) (algorithm : HashAlgorithm)
    {requests : List HelperRequest} {w : HelperWorld} (hne : requests ≠ [])
    (hmax : requests.length ≤ batchMax) (hn : (requests.map HelperRequest.descriptor).Nodup)
    (hopen : ∀ request ∈ requests, (w.unread request.descriptor).isSome) :
    Exits (HashHelper.main d (helperArguments algorithm requests)) w fun code w' =>
      (AllFull w requests → code = 0 ∧ w'.stdout = w.stdout ++
        (requests.map HelperRequest.pair).flatMap (requestLine d algorithm w.unread)) ∧
      (¬AllFull w requests → code ≠ 0) := by
  apply exits_of_ends
  apply main_ends hne
  by_cases hfull : AllFull w requests
  · apply (hashBatch_full algorithm hmax hn hopen hfull).mono
    · exact fun _ _ h => ⟨fun _ => h, fun hshort => absurd hfull hshort⟩
    · exact fun _ _ h => h
  · apply (hashBatch_short algorithm hmax hn hopen hfull).mono
    · rintro _ _ rfl
      exact ⟨fun h => absurd h hfull, fun _ => by decide⟩
    · exact fun _ _ h => h

/-- The digests of an empty file and of one with the letter a. -/
def sampleDigest : DigestObject where
  State := HashAlgorithm × Bytes
  new algorithm := (algorithm, [])
  update state data := (state.1, state.2 ++ data)
  hexdigest state :=
    if state = (.sha1, blobHeader 0) then text "e69de29bb2d1d6434b8b29ae775ad8c2e48c5391"
    else if state = (.sha1, blobHeader 1 ++ [0x61]) then
      text "2e65efe2a145dda7ee51d1741299f848e5bf752e"
    else []
  update_append _ _ _ := by rw [List.append_assoc]
  hexdigest_ascii state := by
    apply List.all_eq_true.1
    split_ifs <;> decide

/-- An empty file and one that starts with the letter a. -/
def sampleFiles : HelperWorld where
  unread descriptor :=
    if descriptor = 5 then some [] else if descriptor = 3 then some [0x61, 0x62] else none
  stdout := []

def sampleRequests : List HelperRequest :=
  [⟨5, 0, by decide, by decide⟩, ⟨3, 1, by decide, by decide⟩]

theorem hash_helper_exits_sample :
    Exits (HashHelper.main sampleDigest (helperArguments .sha1 sampleRequests)) sampleFiles
      fun code w' => code = 0 ∧ w'.stdout = asciiBytes
        (text "e69de29bb2d1d6434b8b29ae775ad8c2e48c5391\n" ++
          text "2e65efe2a145dda7ee51d1741299f848e5bf752e\n") := by
  have hexits := hash_helper_exits sampleDigest .sha1 (w := sampleFiles)
    (show sampleRequests ≠ [] by decide) (by decide) (by decide) (by decide)
  have hfull : AllFull sampleFiles sampleRequests := by
    unfold AllFull
    decide
  intro q w' hs
  refine ⟨(hexits q w' hs).1, fun x hx => ?_⟩
  obtain ⟨code, rfl, hcode⟩ := (hexits q w' hs).2 x hx
  obtain ⟨hzero, hout⟩ := hcode.1 hfull
  refine ⟨code, rfl, hzero, hout.trans ?_⟩
  decide +kernel

/-- A batch without a request is refused, by the helper and by what starts it. -/
theorem empty_batch_refused :
    HashHelper.main sampleDigest (helperArguments .sha1 []) = .pure 2 ∧
      ¬Exits (HashHelper.main sampleDigest (helperArguments .sha1 [])) sampleFiles
        fun code _ => code = 0 := by
  have hmain : HashHelper.main sampleDigest (helperArguments .sha1 []) = .pure 2 := rfl
  refine ⟨hmain, fun hexits => ?_⟩
  rw [hmain] at hexits
  obtain ⟨code, hcode, hzero⟩ := (hexits _ _ .refl).2 (.ok 2) rfl
  cases hcode
  exact absurd hzero (by decide)

end GoalRouter
