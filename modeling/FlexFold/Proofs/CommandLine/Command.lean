import FlexFold.CommandLine.Command
import FlexFold.Proofs.CommandLine.Words

/-!
Requests that come from a command line. What a command line must give, and what it must not give
together, is checked when its words are read, so that of the faults of a request only two are left:
that no output is given, and that the number of jobs is zero.
-/

namespace FlexFold.CommandLine

variable {environment : Option String} {words : List String} {request next : Request}

/-! ### Recording options and flags -/

/-- What recording an option does to the request. -/
theorem setRewriteOption_eq_ok {o : RewriteOption} {values : List String}
    (h : setRewriteOption o values request = .ok next) :
    match o with
    | .input => values ≠ [] ∧ next = { request with input := request.input ++ values }
    | .outDir => ∃ path, next = { request with outDir := some path }
    | .manifest => ∃ path, next = { request with manifest := some path }
    | .config => ∃ path, next = { request with config := some path }
    | .jobs => ∃ n, next = { request with jobs := some n }
    | .exclude => next = { request with exclude := request.exclude ++ values } := by
  have hpath : ∀ {present found : Option Path}, singlePath present values = .ok found →
      ∃ path, found = some path := by
    intro present found hfound
    unfold singlePath at hfound
    split at hfound
    · cases hfound
    · split at hfound <;> cases hfound
      exact ⟨_, rfl⟩
  cases o with
  | input =>
      unfold setRewriteOption at h
      dsimp only at h
      split at h
      · cases h
      · next hvalues =>
          cases h
          exact ⟨by simpa using hvalues, rfl⟩
  | outDir | manifest | config =>
      obtain ⟨found, hfound, rfl⟩ := Attempt.map_eq_ok_iff.mp h
      obtain ⟨path, rfl⟩ := hpath hfound
      exact ⟨path, rfl⟩
  | jobs =>
      unfold setRewriteOption at h
      dsimp only at h
      split at h
      · cases h
      · split at h <;> cases h
        exact ⟨_, rfl⟩
  | exclude =>
      cases h
      rfl

theorem setRewriteFlag_eq_ok {f : RewriteFlag} (h : setRewriteFlag f request = .ok next) :
    next = match f with
      | .inPlace => { request with inPlace := true }
      | .compact => { request with compact := true }
      | .verbose => { request with verbose := true }
      | .dryRun => { request with dryRun := true } := by
  cases f <;> unfold setRewriteFlag at h <;> dsimp only at h <;> split at h <;> cases h <;> rfl

/-- What recording a switch does to the parts of a request that are checked in the end. -/
structure Recorded (switch : Switch RewriteOption RewriteFlag) (request next : Request) :
    Prop where
  input : next.input ≠ [] ↔ request.input ≠ [] ∨ switch = .option .input
  outDir : next.outDir.isSome ↔ request.outDir.isSome ∨ switch = .option .outDir
  inPlace : next.inPlace ↔ request.inPlace ∨ switch = .flag .inPlace

theorem recorded_option {o : RewriteOption} {values : List String}
    (h : rewriteGrammar.setOption o values request = .ok next) :
    Recorded (.option o) request next := by
  have hset := setRewriteOption_eq_ok h
  cases o with
  | input =>
      obtain ⟨hvalues, hnext⟩ := hset
      rw [hnext]
      constructor <;> simp [hvalues]
  | outDir | manifest | config | jobs =>
      obtain ⟨_, hnext⟩ := hset
      rw [hnext]
      constructor <;> simp
  | exclude =>
      rw [hset]
      constructor <;> simp

theorem recorded_flag {f : RewriteFlag} (h : rewriteGrammar.setFlag f request = .ok next) :
    Recorded (.flag f) request next := by
  rw [setRewriteFlag_eq_ok h]
  cases f <;> constructor <;> simp

theorem remembers_input :
    rewriteGrammar.Remembers (.option .input) fun request => request.input ≠ [] where
  option h := (recorded_option h).input
  flag h := (recorded_flag h).input

theorem remembers_outDir :
    rewriteGrammar.Remembers (.option .outDir) fun request => request.outDir.isSome where
  option h := (recorded_option h).outDir
  flag h := (recorded_flag h).outDir

theorem remembers_inPlace :
    rewriteGrammar.Remembers (.flag .inPlace) fun request => request.inPlace where
  option h := (recorded_option h).inPlace
  flag h := (recorded_flag h).inPlace

/-! ### Reading a command line -/

theorem config_of_fillConfig (h : fillConfig environment request = .ok next) :
    next = { request with config := next.config } := by
  unfold fillConfig at h
  split at h
  · split at h <;> cases h
    rfl
  · cases h
    rfl

theorem checkRewrite_eq_ok_iff :
    checkRewrite request = .ok next ↔
      ¬ (request.outDir.isSome ∧ request.inPlace) ∧ request.input ≠ [] ∧ next = request := by
  unfold checkRewrite
  split
  · next h => simp [Bool.and_eq_true_iff.mp h]
  · next h =>
      split
      · next hinput => simp [List.isEmpty_iff.mp hinput]
      · next hinput =>
          have hboth : ¬ (request.outDir.isSome ∧ request.inPlace) := by simpa using h
          have hnonempty : request.input ≠ [] := by simpa using hinput
          rw [Except.ok.injEq]
          exact ⟨fun heq => ⟨hboth, hnonempty, heq.symm⟩, fun hnext => hnext.2.2.symm⟩

theorem exists_of_parse (h : parse environment words = .ok (.rewrite request)) :
    ∃ rest read, words = "rewrite" :: rest ∧ rewriteGrammar.parse { input := [] } rest = .ok read ∧
      (fillConfig environment read >>= checkRewrite) = .ok request := by
  unfold parse at h
  split at h
  · cases h
  · next rest =>
      unfold parseRewrite at h
      split at h
      · cases h
      · next read hread =>
          split at h
          · cases h
          · next hcheck =>
              cases h
              exact ⟨rest, read, rfl, hread, hcheck⟩
  · next rest =>
      obtain ⟨_, _, hpipe⟩ := Attempt.map_eq_ok_iff.mp h
      cases hpipe
  · cases h
  · cases h
  · cases h
  · split at h <;> cases h

/-- Whether the request has a part is known from the words alone. -/
theorem part_of_parse {switch : Switch RewriteOption RewriteFlag} {p : Request → Prop}
    (hp : rewriteGrammar.Remembers switch p) (hstart : ¬ p { input := [] })
    (hconfig : ∀ {request path}, p { request with config := path } ↔ p request)
    (h : parse environment words = .ok (.rewrite request)) :
    p request ↔ rewriteGrammar.Gives words switch := by
  obtain ⟨rest, read, rfl, hread, hcheck⟩ := exists_of_parse h
  obtain ⟨filled, hfill, hcheck⟩ := Attempt.bind_eq_ok_iff.mp hcheck
  obtain ⟨-, -, rfl⟩ := checkRewrite_eq_ok_iff.mp hcheck
  have hname : rewriteGrammar.switches "rewrite" = [] := rfl
  rw [config_of_fillConfig hfill, hconfig, hp.parse hread]
  simp [hstart, Grammar.Gives, hname]

/-! ### Faults that are left -/

theorem check_eq (hinput : request.input ≠ [])
    (houtput : ¬ (request.outDir.isSome ∧ request.inPlace)) :
    request.check =
      if request.outDir.isSome ∨ request.inPlace then
        if request.jobs = some 0 then .error .noJobs else .ok ()
      else .error .noOutput := by
  rw [Request.check, if_neg (by simpa using hinput)]
  cases hdir : request.outDir <;> cases hplace : request.inPlace <;> simp_all

theorem check_fails_iff (hinput : request.input ≠ [])
    (houtput : ¬ (request.outDir.isSome ∧ request.inPlace)) :
    (∃ fault, request.check = .error fault) ↔
      ¬ request.outDir.isSome ∧ ¬ request.inPlace ∨ request.jobs = some 0 := by
  rw [check_eq hinput houtput, ← not_or]
  by_cases hgiven : request.outDir.isSome ∨ request.inPlace
  · by_cases hjobs : request.jobs = some 0 <;> simp [hgiven, hjobs]
  · simp [hgiven]

theorem eq_of_check_eq_error (hinput : request.input ≠ [])
    (houtput : ¬ (request.outDir.isSome ∧ request.inPlace)) {fault : RequestFault}
    (h : request.check = .error fault) : fault = .noOutput ∨ fault = .noJobs := by
  rw [check_eq hinput houtput] at h
  split at h
  · split at h <;> cases h
    exact .inr rfl
  · cases h
    exact .inl rfl

/-- What is known of a request that some words ask for. -/
structure IsAskedFor (words : List String) (request : Request) : Prop where
  given : rewriteGrammar.Gives words (.option .input)
  input : request.input ≠ []
  oneOutput : ¬ (request.outDir.isSome ∧ request.inPlace)
  outDir : request.outDir.isSome ↔ rewriteGrammar.Gives words (.option .outDir)
  inPlace : request.inPlace ↔ rewriteGrammar.Gives words (.flag .inPlace)
  fails_iff : (∃ fault, request.check = .error fault) ↔
    ¬ rewriteGrammar.Gives words (.option .outDir) ∧
        ¬ rewriteGrammar.Gives words (.flag .inPlace) ∨
      request.jobs = some 0
  faults : ∀ fault, request.check = .error fault → fault = .noOutput ∨ fault = .noJobs

/-- Whatever the words and the environment are, a request that is read from them has a pattern and
at most one output, and it fails its check exactly if no word gives an output or the number of jobs
is zero. -/
theorem isAskedFor_of_parse (h : parse environment words = .ok (.rewrite request)) :
    IsAskedFor words request := by
  have hgiven : request.input ≠ [] ↔ rewriteGrammar.Gives words (.option .input) :=
    part_of_parse remembers_input (by simp) Iff.rfl h
  have houtDir : request.outDir.isSome ↔ rewriteGrammar.Gives words (.option .outDir) :=
    part_of_parse remembers_outDir (by simp) Iff.rfl h
  have hinPlace : request.inPlace ↔ rewriteGrammar.Gives words (.flag .inPlace) :=
    part_of_parse remembers_inPlace (by simp) Iff.rfl h
  obtain ⟨_, _, -, -, hcheck⟩ := exists_of_parse h
  obtain ⟨_, -, hcheck⟩ := Attempt.bind_eq_ok_iff.mp hcheck
  obtain ⟨houtput, hinput, rfl⟩ := checkRewrite_eq_ok_iff.mp hcheck
  refine ⟨hgiven.mp hinput, hinput, houtput, houtDir, hinPlace, ?_,
    fun _ => eq_of_check_eq_error hinput houtput⟩
  rw [check_fails_iff hinput houtput, houtDir, hinPlace]

/-- Patterns in two places, one of them behind a flag in the same word, an option without values,
and no jobs at all. -/
def idleWords : List String :=
  ["rewrite", "-vi", "a.json", "b.json", "--in-place", "-e", "-i=-o", "-j0"]

def idleRequest : Request where
  input := ["a.json", "b.json", "-o"]
  inPlace := true
  config := some ⟨"settings.yaml"⟩
  verbose := true
  jobs := some 0

theorem isAskedFor_of_parse_idle :
    parse (some "settings.yaml") idleWords = .ok (.rewrite idleRequest) ∧
      IsAskedFor idleWords idleRequest ∧ idleRequest.check = .error .noJobs := by
  have hparse : parse (some "settings.yaml") idleWords = .ok (.rewrite idleRequest) :=
    Attempt.ok_of_toOption (by decide +kernel)
  exact ⟨hparse, isAskedFor_of_parse hparse, rfl⟩

end FlexFold.CommandLine
