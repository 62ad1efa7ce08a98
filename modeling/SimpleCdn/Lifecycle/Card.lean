import SimpleCdn.Store.Sites

/-!
# The lifecycle of one node

A card is what the control plane records about one node as far as its lifecycle goes: its status,
the identity it accepts, the upgrade it reports and its uninstall workflow.  `Card.Step` lists
everything that may happen to a card, each change with the conditions under which it happens, and
the invariants of the lifecycle are proved from this list alone.
-/

namespace SimpleCdn.Lifecycle

structure Card where
  status : NodeStatus
  autoPaused : Bool
  fingerprint : Option String
  upgradeID : String
  /-- The uninstall workflow: its status and the status it would bring the node back to. -/
  job : Option (NodeUninstallJobStatus × NodeStatus)
  /-- The enrollment tokens that are not used yet. -/
  openTokens : List String
  /-- An upgrade task is queued or applying. -/
  upgrading : Bool

/-- A node that has just been created. -/
def Card.new : Card where
  status := .pending
  autoPaused := false
  fingerprint := none
  upgradeID := ""
  job := none
  openTokens := []
  upgrading := false

/-- The uninstall workflow owns the node. -/
def Card.blocked (c : Card) : Bool :=
  c.job.any fun job => job.1.blocksStatus

/-- What a revocation makes of the workflow. -/
def revokedJob (job : NodeUninstallJobStatus × NodeStatus) : NodeUninstallJobStatus × NodeStatus :=
  if job.1.blocksStatus then (job.1, .revoked) else job

/-- Where a card moves: the secrets that are recorded now, the upgrade a heartbeat reports,
whether the identifier has been given away, and whether monitoring is about to resume the node. -/
structure Setting where
  tokens : List String
  fingerprints : List String
  reports : String → Prop
  issued : Prop
  resumes : Prop

inductive Card.Step (Γ : Setting) : Card → Card → Prop
  | heartbeat (c : Card) (upgradeID : String) (hreports : Γ.reports upgradeID) :
    Step Γ c { c with
      status := if c.status = .pending then .active else c.status, upgradeID := upgradeID }
  | certify (c : Card) (fingerprint : String) (hlive : c.status.retired = false)
      (hfree : c.blocked = false) (hnew : fingerprint ∈ Γ.fingerprints) :
    Step Γ c { c with fingerprint := some fingerprint }
  | addToken (c : Card) (token : String) (hlive : c.status.retired = false)
      (hfree : c.blocked = false) (hnew : token ∈ Γ.tokens) :
    Step Γ c { c with openTokens := c.openTokens ++ [token] }
  | useToken (c : Card) (token : String) :
    Step Γ c { c with openTokens := c.openTokens.filter (· ≠ token) }
  | setStatus (c : Card) (status : NodeStatus)
      (hvalid : status = .active ∨ status = .draining ∨ status = .pending)
      (hopen : c.status ≠ .uninstalling ∧ c.status ≠ .uninstalled)
      (hfree : c.blocked = false ∨ status = c.status) :
    Step Γ c { c with status := status, autoPaused := false }
  | revoke (c : Card) (hopen : c.status ≠ .uninstalling ∧ c.status ≠ .uninstalled) :
    Step Γ c { c with
      status := .revoked, autoPaused := false, fingerprint := none, upgradeID := "",
      job := c.job.map revokedJob, openTokens := [], upgrading := false }
  | pause (c : Card) (hactive : c.status = .active) :
    Step Γ c { c with status := .draining, autoPaused := true }
  | resume (c : Card) (hresumes : Γ.resumes) (hdraining : c.status = .draining)
      (hpaused : c.autoPaused = true) :
    Step Γ c { c with status := .active, autoPaused := false }
  | forgetPause (c : Card) (hdraining : c.status ≠ .draining) :
    Step Γ c { c with autoPaused := false }
  | prepare (c : Card) (hstatus : c.status = .draining ∨ c.status = .revoked)
      (hupgrade : c.upgradeID = "") (hidle : c.upgrading = false) (hfree : c.blocked = false) :
    Step Γ c { c with job := some (.preparing, c.status) }
  | issue (c : Card) (status : NodeUninstallJobStatus) (previous : NodeStatus)
      (hjob : c.job = some (status, previous))
      (hwaits : status = .preparing ∨ status = .ready ∨ status = .failed) :
    Step Γ c { c with job := some (.ready, previous) }
  | start (c : Card) (status : NodeUninstallJobStatus) (previous : NodeStatus)
      (hjob : c.job = some (status, previous))
      (hissued : status = .ready ∨ status = .running ∨ status = .failed) :
    Step Γ c { c with status := .uninstalling, job := some (.running, previous) }
  | fail (c : Card) (status : NodeUninstallJobStatus) (previous : NodeStatus)
      (hjob : c.job = some (status, previous)) (hstarted : status = .running ∨ status = .failed) :
    Step Γ c { c with status := previous, job := some (.failed, previous) }
  | finish (c : Card) (status last : NodeUninstallJobStatus) (previous : NodeStatus)
      (hjob : c.job = some (status, previous))
      (hended : status.blocksStatus = true ∨ status = .forced)
      (hover : last = .succeeded ∨ last = .forced) :
    Step Γ c { c with
      status := .uninstalled, fingerprint := none, job := some (last, previous),
      openTokens := [] }
  | cancel (c : Card) (status : NodeUninstallJobStatus) (previous : NodeStatus)
      (hjob : c.job = some (status, previous))
      (hwaits : status = .preparing ∨ status = .ready ∨ status = .failed) :
    Step Γ c { c with job := some (.canceled, previous) }
  | startUpgrade (c : Card) (hstatus : c.status = .active ∨ c.status = .draining)
      (hupgrade : c.upgradeID = "") (hfree : c.blocked = false) :
    Step Γ c { c with upgrading := true }
  | endUpgrade (c : Card) : Step Γ c { c with upgrading := false }

/-- What may happen to a node, whether it has a row or not. -/
inductive Moves (Γ : Setting) : Option Card → Option Card → Prop
  | keep (c : Option Card) : Moves Γ c c
  | create (hfresh : ¬ Γ.issued) : Moves Γ none (some .new)
  | delete (c : Card) : Moves Γ (some c) none
  | step {c c' : Card} (h : c.Step Γ c') : Moves Γ (some c) (some c')

/-- The workflow and the status of a node agree, and a node that has been shut out keeps no
identity. -/
structure Card.Closed (c : Card) : Prop where
  running : c.status = .uninstalling ↔ ∃ previous, c.job = some (.running, previous)
  ended : c.status = .uninstalled ↔
    ∃ previous, c.job = some (.succeeded, previous) ∨ c.job = some (.forced, previous)
  identity : c.status = .revoked ∨ c.status = .uninstalled →
    c.fingerprint = none ∧ c.openTokens = []
  previous : ∀ status previous, c.job = some (status, previous) → status.blocksStatus = true →
    previous = .draining ∨ (previous = .revoked ∧ c.fingerprint = none ∧ c.openTokens = [])
  prepared : c.blocked = true → c.status ≠ .pending
  upgrading : c.upgrading = true → c.blocked = false ∧ c.status.retired = false

/-- The card of a node that has a row is closed. -/
def AllClosed (c : Option Card) : Prop :=
  ∀ card, c = some card → card.Closed

section

variable {Γ : Setting} {c c' : Card}

/-! ### The invariant -/

theorem Card.new_closed : Card.new.Closed where
  running := ⟨nofun, fun ⟨_, h⟩ => by cases h⟩
  ended := ⟨nofun, fun ⟨_, h⟩ => by rcases h with h | h <;> cases h⟩
  identity := fun _ => ⟨rfl, rfl⟩
  previous := nofun
  prepared := nofun
  upgrading := nofun

/-- A revocation keeps the status of the workflow. -/
theorem map_revokedJob_iff {job : Option (NodeUninstallJobStatus × NodeStatus)}
    {status : NodeUninstallJobStatus} {previous : NodeStatus} :
    job.map revokedJob = some (status, previous) ↔
      ∃ before, job = some (status, before) ∧
        previous = if status.blocksStatus then .revoked else before := by
  constructor
  · intro h
    obtain ⟨⟨status', before⟩, rfl, heq⟩ := Option.map_eq_some_iff.mp h
    unfold revokedJob at heq
    split at heq
    · next hblocks =>
      obtain ⟨rfl, rfl⟩ := Prod.mk.inj heq
      exact ⟨before, rfl, (if_pos hblocks).symm⟩
    · next hblocks =>
      obtain ⟨rfl, rfl⟩ := Prod.mk.inj heq
      exact ⟨before, rfl, (if_neg hblocks).symm⟩
  · rintro ⟨before, rfl, rfl⟩
    by_cases hblocks : status.blocksStatus = true
    · simp [revokedJob, hblocks]
    · simp [revokedJob, hblocks]

theorem Card.Closed.revoke (hc : c.Closed)
    (hopen : c.status ≠ .uninstalling ∧ c.status ≠ .uninstalled) :
    Card.Closed { c with
      status := .revoked, autoPaused := false, fingerprint := none, upgradeID := "",
      job := c.job.map revokedJob, openTokens := [], upgrading := false } where
  running := by
    simp only [reduceCtorEq, false_iff, map_revokedJob_iff]
    rintro ⟨previous, before, hjob, -⟩
    exact hopen.1 (hc.running.mpr ⟨before, hjob⟩)
  ended := by
    simp only [reduceCtorEq, false_iff, map_revokedJob_iff]
    rintro ⟨previous, ⟨before, hjob, -⟩ | ⟨before, hjob, -⟩⟩
    · exact hopen.2 (hc.ended.mpr ⟨before, .inl hjob⟩)
    · exact hopen.2 (hc.ended.mpr ⟨before, .inr hjob⟩)
  identity := fun _ => ⟨rfl, rfl⟩
  previous := by
    intro status previous hjob hblocks
    obtain ⟨before, -, rfl⟩ := map_revokedJob_iff.mp hjob
    exact .inr ⟨if_pos hblocks, rfl, rfl⟩
  prepared := fun _ => nofun
  upgrading := nofun

theorem Card.Closed.finish (hc : c.Closed) {status last : NodeUninstallJobStatus}
    {previous : NodeStatus} (hjob : c.job = some (status, previous))
    (hended : status.blocksStatus = true ∨ status = .forced)
    (hover : last = .succeeded ∨ last = .forced) :
    Card.Closed { c with
      status := .uninstalled, fingerprint := none, job := some (last, previous),
      openTokens := [] } where
  running := by rcases hover with rfl | rfl <;> simp
  ended := by rcases hover with rfl | rfl <;> simp
  identity := fun _ => ⟨rfl, rfl⟩
  previous := by
    intro status previous hjob hblocks
    obtain ⟨rfl, rfl⟩ := Prod.mk.inj (Option.some.inj hjob)
    rcases hover with rfl | rfl
    · cases hblocks
    · cases hblocks
  prepared := fun _ => nofun
  upgrading := by
    -- no upgrade is under way while a workflow is open, and none after it
    intro hupgrading
    obtain ⟨hfree, hlive⟩ := hc.upgrading hupgrading
    rcases hended with hblocks | rfl
    · rw [Card.blocked, hjob, Option.any_some, hblocks] at hfree
      cases hfree
    · rw [hc.ended.mpr ⟨previous, .inr hjob⟩] at hlive
      cases hlive

/-! The guard of each step leaves the workflow and the status in agreement. -/

theorem Card.Closed.prepare (hc : c.Closed) (hstatus : c.status = .draining ∨ c.status = .revoked)
    (hidle : c.upgrading = false) (hfree : c.blocked = false) :
    Card.Closed { c with job := some (.preparing, c.status) } := by
  obtain ⟨hrunning, hover, hidentity, hprevious, hprepared, hupgrading⟩ := id hc
  constructor <;> dsimp only [Card.blocked] at * <;>
    grind [NodeUninstallJobStatus.blocksStatus, NodeStatus.retired]

theorem Card.Closed.issue (hc : c.Closed) {status : NodeUninstallJobStatus} {previous : NodeStatus}
    (hjob : c.job = some (status, previous))
    (hwaits : status = .preparing ∨ status = .ready ∨ status = .failed) :
    Card.Closed { c with job := some (.ready, previous) } := by
  obtain ⟨hrunning, hover, hidentity, hprevious, hprepared, hupgrading⟩ := id hc
  constructor <;> dsimp only [Card.blocked] at * <;>
    grind [NodeUninstallJobStatus.blocksStatus, NodeStatus.retired]

theorem Card.Closed.start (hc : c.Closed) {status : NodeUninstallJobStatus} {previous : NodeStatus}
    (hjob : c.job = some (status, previous))
    (hissued : status = .ready ∨ status = .running ∨ status = .failed) :
    Card.Closed { c with status := .uninstalling, job := some (.running, previous) } := by
  obtain ⟨hrunning, hover, hidentity, hprevious, hprepared, hupgrading⟩ := id hc
  constructor <;> dsimp only [Card.blocked] at * <;>
    grind [NodeUninstallJobStatus.blocksStatus, NodeStatus.retired]

theorem Card.Closed.fail (hc : c.Closed) {status : NodeUninstallJobStatus} {previous : NodeStatus}
    (hjob : c.job = some (status, previous)) (hstarted : status = .running ∨ status = .failed) :
    Card.Closed { c with status := previous, job := some (.failed, previous) } := by
  obtain ⟨hrunning, hover, hidentity, hprevious, hprepared, hupgrading⟩ := id hc
  constructor <;> dsimp only [Card.blocked] at * <;>
    grind [NodeUninstallJobStatus.blocksStatus, NodeStatus.retired]

theorem Card.Closed.cancel (hc : c.Closed) {status : NodeUninstallJobStatus}
    {previous : NodeStatus} (hjob : c.job = some (status, previous))
    (hwaits : status = .preparing ∨ status = .ready ∨ status = .failed) :
    Card.Closed { c with job := some (.canceled, previous) } := by
  obtain ⟨hrunning, hover, hidentity, hprevious, hprepared, hupgrading⟩ := id hc
  constructor <;> dsimp only [Card.blocked] at * <;>
    grind [NodeUninstallJobStatus.blocksStatus, NodeStatus.retired]

/-- A node that is in service, or about to be, takes another such status. -/
theorem Card.Closed.serve (hc : c.Closed) {status : NodeStatus} {autoPaused : Bool}
    (hvalid : status = .active ∨ status = .draining ∨ status = .pending)
    (hopen : c.status ≠ .uninstalling ∧ c.status ≠ .uninstalled)
    (hblocked : c.blocked = true → status ≠ .pending) :
    Card.Closed { c with status := status, autoPaused := autoPaused } := by
  obtain ⟨hrunning, hover, hidentity, hprevious, hprepared, hupgrading⟩ := id hc
  constructor <;> dsimp only [Card.blocked] at * <;>
    grind [NodeUninstallJobStatus.blocksStatus, NodeStatus.retired]

theorem Card.Closed.step (hc : c.Closed) (h : c.Step Γ c') : c'.Closed := by
  obtain ⟨hrunning, hover, hidentity, hprevious, hprepared, hupgrading⟩ := id hc
  cases h with
  | revoke hopen => exact hc.revoke hopen
  | prepare hstatus _ hidle hfree => exact hc.prepare hstatus hidle hfree
  | issue status previous hjob hwaits => exact hc.issue hjob hwaits
  | start status previous hjob hissued => exact hc.start hjob hissued
  | fail status previous hjob hstarted => exact hc.fail hjob hstarted
  | finish status last previous hjob hended hfinal => exact hc.finish hjob hended hfinal
  | cancel status previous hjob hwaits => exact hc.cancel hjob hwaits
  | certify | addToken | useToken | startUpgrade | endUpgrade =>
    -- the node is neither shut out nor owned by a workflow, or its identity stays
    constructor <;> dsimp only [Card.blocked] at * <;> grind [NodeStatus.retired]
  | setStatus status hvalid hopen hfree =>
    refine hc.serve hvalid hopen fun hblocked => ?_
    rcases hfree with hfree | rfl
    · rw [hblocked] at hfree
      cases hfree
    · exact hprepared hblocked
  | pause hactive => exact hc.serve (.inr (.inl rfl)) (by simp [hactive]) fun _ => nofun
  | resume _ hdraining _ => exact hc.serve (.inl rfl) (by simp [hdraining]) fun _ => nofun
  | heartbeat | forgetPause =>
    constructor <;> dsimp only [Card.blocked] at * <;>
      grind [NodeUninstallJobStatus.blocksStatus, NodeStatus.retired]

theorem Moves.closed {c c' : Option Card} (h : Moves Γ c c') (hc : AllClosed c) :
    AllClosed c' := by
  intro card hcard
  cases h with
  | keep => exact hc card hcard
  | create =>
    obtain rfl := Option.some.inj hcard
    exact Card.new_closed
  | delete => cases hcard
  | step hstep =>
    obtain rfl := Option.some.inj hcard
    exact (hc _ rfl).step hstep

/-! ### The end of a node -/

theorem Card.Step.uninstalled (h : c.Step Γ c') (hc : c.Closed)
    (hstatus : c.status = .uninstalled) : c'.status = .uninstalled := by
  obtain ⟨previous, hover⟩ := hc.ended.mp hstatus
  cases h with
  | heartbeat | prepare | setStatus | revoke | pause | resume => simp_all
  | start status before hjob hissued | fail status before hjob hissued =>
    -- the workflow is over, so none of its steps is left
    rw [hjob] at hover
    rcases hover with hover | hover
    · cases hover
      simp at hissued
    · cases hover
      simp at hissued
  | finish => rfl
  | certify | addToken | useToken | forgetPause | issue | cancel | startUpgrade | endUpgrade =>
    exact hstatus

/-- A node that is uninstalled stays so until its row is deleted. -/
theorem Moves.uninstalled {o : Option Card} (h : Moves Γ (some c) o) (hc : c.Closed)
    (hstatus : c.status = .uninstalled) : ∀ card, o = some card → card.status = .uninstalled := by
  intro card hcard
  cases h with
  | keep =>
    obtain rfl := Option.some.inj hcard
    exact hstatus
  | delete => cases hcard
  | step hstep =>
    obtain rfl := Option.some.inj hcard
    exact hstep.uninstalled hc hstatus

/-! ### Identities -/

/-- None of the secrets gives access to the node. -/
def Card.Withdrawn (fingerprints tokens : List String) (c : Card) : Prop :=
  (∀ fingerprint, c.fingerprint = some fingerprint → fingerprint ∉ fingerprints) ∧
    ∀ token ∈ c.openTokens, token ∉ tokens

theorem Card.Withdrawn.of_none {fingerprints tokens : List String}
    (h : c.fingerprint = none ∧ c.openTokens = []) : c.Withdrawn fingerprints tokens := by
  constructor
  · rw [h.1]
    exact nofun
  · rw [h.2]
    exact nofun

/-- A fresh secret is the only way to get access again. -/
theorem Card.Withdrawn.step {fingerprints tokens : List String}
    (hc : c.Withdrawn fingerprints tokens) (h : c.Step Γ c')
    (hfingerprints : ∀ fingerprint ∈ Γ.fingerprints, fingerprint ∉ fingerprints)
    (htokens : ∀ token ∈ Γ.tokens, token ∉ tokens) :
    c'.Withdrawn fingerprints tokens := by
  cases h with
  | certify fingerprint hlive hfree hnew =>
    refine ⟨fun other hother hmem => ?_, hc.2⟩
    obtain rfl := Option.some.inj hother
    exact hfingerprints fingerprint hnew hmem
  | addToken token hlive hfree hnew =>
    refine ⟨hc.1, fun other hother hmem => ?_⟩
    rcases List.mem_append.mp hother with hother | hother
    · exact hc.2 other hother hmem
    · obtain rfl := List.mem_singleton.mp hother
      exact htokens _ hnew hmem
  | useToken token => exact ⟨hc.1, fun other hother => hc.2 other (List.mem_filter.mp hother).1⟩
  | revoke | finish => exact .of_none ⟨rfl, rfl⟩
  | heartbeat | setStatus | pause | resume | forgetPause | prepare | issue | start | fail
  | cancel | startUpgrade | endUpgrade => exact hc

/-! ### Pausing -/

/-- A workflow does not leave its node active. -/
def Card.Paused (c : Card) : Prop :=
  c.blocked = true → c.status ≠ .active

/-- Only monitoring turns a node active while a workflow owns it. -/
theorem Card.Paused.step (hpaused : c.Paused) (hc : c.Closed) (h : c.Step Γ c')
    (hresumes : Γ.resumes → c.blocked = false) : c'.Paused := by
  intro hblocked
  cases h with
  | heartbeat upgradeID hreports =>
    have hpending := hc.prepared hblocked
    dsimp only
    rw [if_neg hpending]
    exact hpaused hblocked
  | setStatus status hvalid hopen hfree =>
    rcases hfree with hfree | rfl
    · rw [show c.blocked = true from hblocked] at hfree
      cases hfree
    · exact hpaused hblocked
  | resume hresume hdraining hauto =>
    rw [show c.blocked = true from hblocked] at hresumes
    cases hresumes hresume
  | fail status previous hjob hstarted =>
    have hblocks : status.blocksStatus = true := by rcases hstarted with rfl | rfl <;> rfl
    dsimp only
    rcases hc.previous status previous hjob hblocks with rfl | ⟨rfl, -⟩
    · nofun
    · nofun
  | prepare hstatus hupgrade hidle hfree =>
    dsimp only
    rcases hstatus with hstatus | hstatus
    · rw [hstatus]
      nofun
    · rw [hstatus]
      nofun
  | issue status previous hjob hwaits =>
    have hblocks : status.blocksStatus = true := by rcases hwaits with rfl | rfl | rfl <;> rfl
    exact hpaused (by rw [Card.blocked, hjob]; exact hblocks)
  | revoke | pause | start | finish => nofun
  | cancel => cases hblocked
  | certify | addToken | useToken | forgetPause | startUpgrade | endUpgrade =>
    exact hpaused hblocked

/-! ### Preparing the uninstall of a revoked node -/

/-- No upgrade is recorded for a node that is revoked, or that its workflow brings back to that. -/
structure Card.Quiet (c : Card) : Prop where
  revoked : c.status = .revoked → c.upgradeID = ""
  workflow : ∀ status, c.job = some (status, .revoked) → status.blocksStatus = true →
    c.status.retired = true ∧ c.upgradeID = ""

theorem Card.new_quiet : Card.new.Quiet where
  revoked := nofun
  workflow := nofun

/-- Only a heartbeat records an upgrade. -/
theorem Card.Quiet.step (hquiet : c.Quiet) (h : c.Step Γ c')
    (hreports : ∀ upgradeID, Γ.reports upgradeID → c.status.retired = true → c.upgradeID = "" →
      upgradeID = "") : c'.Quiet := by
  obtain ⟨hrevoked, hworkflow⟩ := hquiet
  cases h with
  | heartbeat upgradeID hreport =>
    have hkept : c.status.retired = true →
        (if c.status = .pending then NodeStatus.active else c.status) = c.status := by
      intro hretired
      refine if_neg fun hpending => ?_
      rw [hpending] at hretired
      cases hretired
    constructor
    · dsimp only
      split
      · nofun
      · intro hstatus
        exact hreports upgradeID hreport (by rw [hstatus]; rfl) (hrevoked hstatus)
    · intro status hjob hblocks
      obtain ⟨hretired, hnone⟩ := hworkflow status hjob hblocks
      dsimp only
      rw [hkept hretired]
      exact ⟨hretired, hreports upgradeID hreport hretired hnone⟩
  | setStatus status hvalid hopen hfree =>
    refine ⟨fun hstatus => ?_, fun status' hjob hblocks => ?_⟩
    · dsimp only at hstatus
      subst hstatus
      simp at hvalid
    · -- a workflow keeps the status
      rcases hfree with hfree | rfl
      · rw [Card.blocked, show c.job = _ from hjob, Option.any_some, hblocks] at hfree
        cases hfree
      · exact hworkflow status' hjob hblocks
  | revoke hopen => exact ⟨fun _ => rfl, fun _ _ _ => ⟨rfl, rfl⟩⟩
  | pause hactive =>
    refine ⟨nofun, fun status hjob hblocks => ?_⟩
    have hretired := (hworkflow status hjob hblocks).1
    rw [hactive] at hretired
    cases hretired
  | resume hresumes hdraining hpaused =>
    refine ⟨nofun, fun status hjob hblocks => ?_⟩
    have hretired := (hworkflow status hjob hblocks).1
    rw [hdraining] at hretired
    cases hretired
  | prepare hstatus hupgrade hidle hfree =>
    refine ⟨hrevoked, fun status hjob hblocks => ?_⟩
    have hprevious : c.status = .revoked := (Prod.mk.inj (Option.some.inj hjob)).2
    exact ⟨by dsimp only; rw [hprevious]; rfl, hupgrade⟩
  | issue status previous hjob hwaits =>
    refine ⟨hrevoked, fun status' hjob' _ => ?_⟩
    obtain rfl : previous = .revoked := (Prod.mk.inj (Option.some.inj hjob')).2
    exact hworkflow status hjob (by rcases hwaits with rfl | rfl | rfl <;> rfl)
  | start status previous hjob hissued =>
    refine ⟨nofun, fun status' hjob' _ => ⟨rfl, ?_⟩⟩
    obtain rfl : previous = .revoked := (Prod.mk.inj (Option.some.inj hjob')).2
    exact (hworkflow status hjob (by rcases hissued with rfl | rfl | rfl <;> rfl)).2
  | fail status previous hjob hstarted =>
    have hblocks : status.blocksStatus = true := by rcases hstarted with rfl | rfl <;> rfl
    refine ⟨?_, fun status' hjob' _ => ?_⟩
    · rintro rfl
      exact (hworkflow status hjob hblocks).2
    · obtain rfl : previous = .revoked := (Prod.mk.inj (Option.some.inj hjob')).2
      exact ⟨rfl, (hworkflow status hjob hblocks).2⟩
  | finish status last previous hjob hended hover =>
    refine ⟨nofun, fun status' hjob' hblocks => ?_⟩
    obtain rfl : last = status' := (Prod.mk.inj (Option.some.inj hjob')).1
    rcases hover with rfl | rfl
    · cases hblocks
    · cases hblocks
  | cancel status previous hjob hwaits =>
    refine ⟨hrevoked, fun status' hjob' hblocks => ?_⟩
    obtain rfl : .canceled = status' := (Prod.mk.inj (Option.some.inj hjob')).1
    cases hblocks
  | certify | addToken | useToken | forgetPause | startUpgrade | endUpgrade =>
    exact ⟨hrevoked, hworkflow⟩

end

end SimpleCdn.Lifecycle
