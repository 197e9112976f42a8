import ImmersedBody.Proofs.Coordinator.Lasting

/-!
# Velocities of the flow that were requested

A velocity field is sampled at positions of the structures that belong to a time of the
step.  A request is consumed at each of the three times, and only the velocity of the flow
at this time is replaced.  If it is the half time, the half-time velocities of all
structures are those of the field at the half-time positions of this moment, and they can
be read until the step is closed or the flow is sampled again, also if the positions move
on.  This is `requested_velocities`.

After sampling at another time the half-time velocities are what they were:
`request_consumed_early` is a step in which they are those of the step before.
-/

namespace ImmersedBody

open ImmersedBody.Action NodalField

variable {α : Type} {shape : Shape}

/-! ## Fields -/

namespace NodalField

variable {field positions : NodalField α} {dim : Dim} {nodes : Nat} {f : Vec3 α → Vec3 α}

theorem Samples.synchronized [Zero α] (samples : field.Samples dim f positions nodes)
    (spans : field.layout.Spans dim nodes) :
    ({ field with synchronized := true } : NodalField α).Samples dim f positions nodes := by
  intro node inside
  rcases samples node inside with ⟨x, read, holds⟩
  refine ⟨x, read, ?_⟩
  intro place below
  rw [get_synchronized (spans.ownsNode rfl inside place below), holds place below]

theorem coords_scale [Mul α] (v : Vec3 α) (factor : α) {place : Nat} (below : place < dim.size) :
    (dim.coords (v.scale factor))[place] = (dim.coords v)[place] * factor := by
  cases dim with
  | two =>
      match place, below with
      | 0, _ | 1, _ => rfl
  | three =>
      match place, below with
      | 0, _ | 1, _ | 2, _ => rfl

theorem Samples.scale [Scalar α] (samples : field.Samples dim f positions nodes) (factor : α) :
    (field.scale factor).Samples dim (fun x => (f x).scale factor) positions nodes := by
  intro node inside
  rcases samples node inside with ⟨x, read, holds⟩
  refine ⟨x, read, ?_⟩
  intro place below
  rw [NodalField.scale, get_map, holds place below, coords_scale]
  rfl

end NodalField

/-! ## One structure -/

section

variable {f : Vec3 α → Vec3 α} {layout : FieldLayout} {step : StepFields α}
  {body : RigidStructure shape α}

/-- Positions and velocities of a step with one layout. -/
structure StepFields.Sampleable (layout : FieldLayout) (step : StepFields α) : Prop where
  halfPositions : step.halfPositions.layout = layout
  newPositions : step.newPositions.layout = layout
  halfVelocity : step.halfVelocity.layout = layout
  newVelocity : step.newVelocity.layout = layout

namespace RigidStructure

/-- A structure that owns all its nodes and whose positions and velocities are laid out like it. -/
structure Sampleable (body : RigidStructure shape α) : Prop where
  spans : body.layout.Spans shape.dim body.mesh.vertices.size
  positions : body.positions.layout = body.layout
  lagrangianVelocity : body.lagrangianVelocity.layout = body.layout
  step : ∀ step, body.step = some step → step.Sampleable body.layout

/-- A velocity has the values of a function at the half-time positions of a structure. -/
def HalfSample [Scalar α] (f : Vec3 α → Vec3 α) (body : RigidStructure shape α)
    (velocity : NodalField α) : Prop :=
  ∃ step, body.step = some step ∧ velocity.layout = body.layout ∧
    velocity.Samples shape.dim f step.halfPositions body.mesh.vertices.size

/--
The velocity of the flow at a time of the step is replaced by the values of a function at the
positions of this time, and nothing else changes.
-/
def Sampled [Scalar α] (f : Vec3 α → Vec3 α) (level : TimeLevel)
    (before after : RigidStructure shape α) : Prop :=
  ∃ step velocity, before.step = some step ∧ velocity.layout = before.layout ∧
    velocity.Samples shape.dim f (before.positionsAt step level) before.mesh.vertices.size ∧
      after = before.withFlowVelocity step level velocity

theorem HalfSample.scale [Scalar α] {velocity : NodalField α} (sample : body.HalfSample f velocity)
    (factor : α) : body.HalfSample (fun x => (f x).scale factor) (velocity.scale factor) := by
  rcases sample with ⟨step, found, same, samples⟩
  exact ⟨step, found, same, samples.scale factor⟩

namespace Sampleable

theorem withStep (sampleable : body.Sampleable) (fits : step.Sampleable body.layout) :
    { body with step := some step }.Sampleable :=
  { sampleable with
    step := by
      rintro _ ⟨⟩
      exact fits }

theorem positionsAt (sampleable : body.Sampleable) (found : body.step = some step)
    (level : TimeLevel) : (body.positionsAt step level).layout = body.layout := by
  cases level with
  | current =>
      exact sampleable.positions
  | half =>
      exact (sampleable.step step found).halfPositions
  | new =>
      exact (sampleable.step step found).newPositions

theorem flowVelocityAt (sampleable : body.Sampleable) (found : body.step = some step)
    (level : TimeLevel) : (body.flowVelocityAt step level).layout = body.layout := by
  cases level with
  | current =>
      exact sampleable.lagrangianVelocity
  | half =>
      exact (sampleable.step step found).halfVelocity
  | new =>
      exact (sampleable.step step found).newVelocity

theorem withFlowVelocity (sampleable : body.Sampleable) (found : body.step = some step)
    (level : TimeLevel) {velocity : NodalField α} (same : velocity.layout = body.layout) :
    (body.withFlowVelocity step level velocity).Sampleable := by
  have fits := sampleable.step step found
  cases level with
  | current =>
      exact { sampleable with lagrangianVelocity := same }
  | half =>
      exact sampleable.withStep { fits with halfVelocity := same }
  | new =>
      exact sampleable.withStep { fits with newVelocity := same }

variable [Scalar α]

theorem lasting : Lasting fun _ (body : RigidStructure shape α) => body.Sampleable where
  solver := {
    step := fun _ _ _ _ opened half new halfVelocity newVelocity sampleable => by
      have fits := sampleable.step _ opened
      exact sampleable.withStep {
        halfPositions := half ▸ fits.halfPositions
        newPositions := new ▸ fits.newPositions
        halfVelocity := halfVelocity ▸ fits.halfVelocity
        newVelocity := newVelocity ▸ fits.newVelocity } }
  halfPositions := fun _ _ _ _ opened same sampleable => by
    have fits := sampleable.step _ opened
    exact sampleable.withStep { fits with halfPositions := same.trans fits.halfPositions }
  newPositions := fun _ _ _ _ opened same sampleable => by
    have fits := sampleable.step _ opened
    exact sampleable.withStep { fits with newPositions := same.trans fits.newPositions }
  mass := fun _ _ _ _ sampleable => { sampleable with }
  velocity := fun _ _ _ sampleable => { sampleable with }
  constraintForce := fun _ _ _ sampleable => { sampleable with }
  opened := fun _ _ _ sampleable => {
    sampleable with
    step := by
      rintro _ ⟨⟩
      exact {
        halfPositions := sampleable.positions
        newPositions := sampleable.positions
        halfVelocity := sampleable.lagrangianVelocity
        newVelocity := sampleable.lagrangianVelocity } }
  committed := fun _ _ _ opened sampleable => {
    sampleable with
    positions := (sampleable.step _ opened).newPositions
    lagrangianVelocity := (sampleable.step _ opened).newVelocity
    step := by
      rintro _ ⟨⟩ }

theorem of_setUp {description : StructureDescription shape α} {seat : Seat}
    (serial : seat.size = 1) (created : setUp description seat = .ok body) : body.Sampleable := by
  have sound := (carries_of_setUp serial created).sound
  have outside := (fields_of_setUp created).2.2.2.2
  have still : body.lagrangianVelocity.layout = body.layout := by
    simp only [setUp, bind_eq_ok_iff, pure_eq_ok_iff] at created
    rcases created with ⟨layout, -, positions, -, rfl⟩
    rfl
  exact {
    spans := ⟨sound.block, sound.owned⟩
    positions := sound.positions
    lagrangianVelocity := still
    step := fun step found => by
      rw [outside] at found
      cases found }

end Sampleable

/-- A velocity of the flow can be stored and replaced. -/
theorem exists_withFlowVelocity [Scalar α] (found : body.step = some step) (level : TimeLevel)
    (velocity : NodalField α) :
    ∃ step', (body.withFlowVelocity step level velocity).step = some step' ∧
      (body.withFlowVelocity step level velocity).flowVelocityAt step' level = velocity ∧
        ∀ other, (body.withFlowVelocity step level velocity).withFlowVelocity step' level other =
          body.withFlowVelocity step level other := by
  cases level with
  | current =>
      exact ⟨step, found, rfl, fun _ => rfl⟩
  | half | new =>
      exact ⟨_, rfl, rfl, fun _ => rfl⟩

end RigidStructure

end

namespace Coordinator

open RigidStructure

variable [Scalar α]

/-- A velocity field is sampled at the nodes of a structure, unless there is no step. -/
theorem ends_interpolateOnto_transfer {seat : Seat} (serial : seat.size = 1)
    {body : RigidStructure shape α} (sampleable : body.Sampleable) {objectName : String}
    {field : Vec3 α → α → Vec3 α} {level : TimeLevel} {time : α} {part : Nat}
    {tally : SpreadTally α} :
    (interpolateOnto seat objectName (AnalyticFlow.transfer shape.dim field) level time part).Ends
      (body, tally) (fun _ after => body.Sampled (field · time) level after.1)
      fun after => body.step = none ∧ after.1 = body := by
  rw [interpolateOnto]
  simp only [ends_bind, ends_get, ends_stepFields, ends_attempt, ends_part]
  cases found : body.step with
  | none =>
      exact ⟨rfl, trivial⟩
  | some step =>
      rcases sampleable.spans.exists_writeMapped (sampleable.positionsAt found level)
        (sampleable.flowVelocityAt found level) (field · time) with ⟨sampled, written, same, samples⟩
      have sample : AnalyticFlow.sample shape.dim field (body.positionsAt step level) time
          (body.flowVelocityAt step level) = .ok () sampled :=
        written
      rcases exists_withFlowVelocity found level sampled with ⟨step', found', stored, replaced⟩
      simp only [AnalyticFlow.transfer, sample, found', stored, ends_collective,
        alone_close serial, ends_set, replaced]
      have synchronized := samples.synchronized (same ▸ sampleable.spans)
      exact ⟨step, { sampled with synchronized := true }, found, same, synchronized, rfl⟩

theorem ends_interpolateOnto_of_isSome {seat : Seat} (serial : seat.size = 1)
    {body : RigidStructure shape α} (sampleable : body.Sampleable)
    (prepared : body.step.isSome = true) {objectName : String} {field : Vec3 α → α → Vec3 α}
    {level : TimeLevel} {time : α} {part : Nat} {tally : SpreadTally α} :
    (interpolateOnto seat objectName (AnalyticFlow.transfer shape.dim field) level time part).Ends
      (body, tally) (fun _ after => body.Sampled (field · time) level after.1) fun _ => False := by
  apply (ends_interpolateOnto_transfer serial sampleable).imp fun _ _ sampled => sampled
  rintro _ ⟨closed, -⟩
  rw [closed] at prepared
  cases prepared

/-! ## Sampling -/

section

variable {c : Coordinator shape α} {settings : Settings α} {count : Nat}
  {field : Vec3 α → α → Vec3 α} {time : α} {tally : SpreadTally α}

/-- Sampling a velocity field leaves the layouts as they are. -/
theorem samplingKeeps_sampleable : SamplingKeeps settings count
    (fun _ (body : RigidStructure shape α) => body.Sampleable)
    (AnalyticFlow.transfer shape.dim field) := by
  intro c tally time standing
  rw [interpolate]
  simp only [ends_bind, ends_get, ends_first, ends_checking, ends_attempting, ends_committing]
  split
  next level _ =>
    cases consumed : c.protocol.consumeRequest with
    | error violation =>
        exact ⟨standing, rfl, rfl, rfl⟩
    | ok outcome =>
        have same := StepProtocol.sameStep_of_consumeRequest consumed
        have between : Standing settings count (fun _ body => body.Sampleable)
            { c with protocol := outcome.protocol } :=
          standing.congr rfl rfl rfl
        have samples (part : Nat) (body : RigidStructure shape α) (tally : SpreadTally α)
            (sampleable : body.Sampleable) :
            (interpolateOnto c.seat c.name (AnalyticFlow.transfer shape.dim field) level time
              part).Ends (body, tally) (fun _ after => after.1.Sampleable)
              fun after => after.1.Sampleable := by
          apply (ends_interpolateOnto_transfer standing.serial sampleable).imp
          · rintro _ ⟨_, _⟩ ⟨step, velocity, found, fits, -, rfl⟩
            exact sampleable.withFlowVelocity found level fits
          · rintro ⟨_, _⟩ ⟨-, rfl⟩
            exact sampleable
        simp only
        split
        · apply (between.ends_forStructures (fun _ body => body.Sampleable)
            (fun _ body => body.Sampleable) samples tally).imp
          · rintro _ after ⟨kept, protocol⟩
            exact ⟨kept, protocol ▸ same⟩
          · rintro after ⟨protocol, kept, -⟩
            refine ⟨kept.imp fun _ _ => ?_, protocol ▸ same⟩
            exact fun sampleable => sampleable.elim id (Or.elim · id id)
        · exact ⟨between, same⟩
  next =>
    exact ⟨standing, rfl, rfl, rfl⟩

end

/-! ## Half-time velocities in an open step -/

/-- Something is known of the half-time velocity of a structure. -/
def HasHalfVelocity (known : Nat → NodalField α → Prop) (part : Nat)
    (body : RigidStructure shape α) : Prop :=
  ∃ step, body.step = some step ∧ known part step.halfVelocity

omit [Scalar α] in
/-- Only the flow matters for the half-time velocity of a structure. -/
theorem lastsInStep_hasHalfVelocity {known : Nat → NodalField α → Prop} :
    LastsInStep (HasHalfVelocity known : Nat → RigidStructure shape α → Prop) where
  solver := {
    step := by
      rintro part body fields fields' opened - - same - ⟨step, found, held⟩
      rw [opened, Option.some.injEq] at found
      subst found
      exact ⟨fields', rfl, same ▸ held⟩ }
  halfPositions := by
    rintro part body step halfPositions opened - ⟨step', found, held⟩
    rw [opened, Option.some.injEq] at found
    subst found
    exact ⟨_, rfl, held⟩
  newPositions := by
    rintro part body step newPositions opened - ⟨step', found, held⟩
    rw [opened, Option.some.injEq] at found
    subst found
    exact ⟨_, rfl, held⟩
  mass := fun _ _ _ _ known => known
  velocity := fun _ _ _ known => known

/-- The values of a function at the half-time positions of the structure with a number. -/
def SampledFrom (sources : List (RigidStructure shape α)) (f : Vec3 α → Vec3 α) (part : Nat)
    (velocity : NodalField α) : Prop :=
  ∃ source, sources[part]? = some source ∧ source.HalfSample f velocity

/-- A structure is related to the one with its number in a list. -/
def RelatedTo (sources : List (RigidStructure shape α))
    (related : RigidStructure shape α → RigidStructure shape α → Prop) (part : Nat)
    (body : RigidStructure shape α) : Prop :=
  ∃ source, sources[part]? = some source ∧ related source body

omit [Scalar α] in
theorem Standing.forall₂ {settings : Settings α} {c : Coordinator shape α}
    {sources : List (RigidStructure shape α)}
    {related : RigidStructure shape α → RigidStructure shape α → Prop}
    (standing : c.Standing settings sources.length (RelatedTo sources related)) :
    List.Forall₂ related sources c.structures := by
  rw [List.forall₂_iff_get]
  refine ⟨standing.length_eq.symm, ?_⟩
  intro part inside inside'
  rcases standing.each part _ (List.getElem?_eq_getElem inside') with ⟨source, source_eq, holds⟩
  rw [List.getElem?_eq_getElem inside, Option.some.injEq] at source_eq
  subst source_eq
  exact holds

section

variable {c : Coordinator shape α} {settings : Settings α} {count : Nat}
  {field : Vec3 α → α → Vec3 α} {time : α} {tally : SpreadTally α} {window : StepWindow α}
  {level : TimeLevel}

theorem Standing.checkSample_eq_ok {fits : Nat → RigidStructure shape α → Prop}
    (standing : c.Standing settings count fits) (inStep : c.protocol.phase.inStep = true)
    (opened : c.protocol.window = some window)
    (matched : window.match? settings.timeTolerance time [.current, .half, .new] = some level) :
    checkSample time c = .ok level := by
  have accepted : c.protocol.phase.after .interpolateVelocity = .ok _ := if_pos inStep
  rw [checkSample, StepProtocol.check_eq_ok_iff.mpr ⟨_, accepted, opened⟩]
  show c.levelOf .interpolateVelocity window time = .ok level
  rw [levelOf, standing.settings_eq, matched]

/-- A request that is pending is consumed at each time of the step, and all structures sampled. -/
theorem Standing.ends_interpolate_level
    (standing : c.Standing settings count fun _ body => body.Sampleable)
    (prepared : ∀ body ∈ c.structures, body.step.isSome = true)
    (inStep : c.protocol.phase.inStep = true) (opened : c.protocol.window = some window)
    (pending : c.protocol.velocityRequested = true)
    (matched : window.match? settings.timeTolerance time [.current, .half, .new] = some level) :
    (interpolate (AnalyticFlow.transfer shape.dim field) time).Ends (c, tally)
      (fun _ after => after.1.Standing settings count
          (RelatedTo c.structures (Sampled (field · time) level)) ∧
        after.1.protocol.velocityRequested = false ∧ c.protocol.SameStep after.1.protocol)
      fun _ => False := by
  have accepted : c.protocol.phase.after .interpolateVelocity =
      .ok (if c.protocol.phase.predicting then .velocityInterpolated else c.protocol.phase) := by
    rw [Phase.after, if_pos inStep]
  have checked := standing.checkSample_eq_ok inStep opened matched
  have consumed := StepProtocol.consumeRequest_eq_ok_iff.mpr ⟨_, window, accepted, opened, rfl⟩
  rw [if_pos pending] at consumed
  -- The sampling is compared with the structures before it, so each of them is kept in mind.
  have between : Standing settings count
      (fun part body => c.structures[part]? = some body ∧ body.Sampleable)
      { c with protocol := { c.protocol with
          phase := if c.protocol.phase.predicting then .velocityInterpolated else c.protocol.phase
          velocityRequested := false } } := {
    standing with
    each := fun part body found => ⟨found, standing.each part body found⟩ }
  have samples (part : Nat) (body : RigidStructure shape α) (tally : SpreadTally α)
      (known : c.structures[part]? = some body ∧ body.Sampleable) :
      (interpolateOnto c.seat c.name (AnalyticFlow.transfer shape.dim field) level time part).Ends
        (body, tally)
        (fun _ after => RelatedTo c.structures (Sampled (field · time) level) part after.1)
        fun _ => False := by
    have present := prepared body (List.mem_of_getElem? known.1)
    apply (ends_interpolateOnto_of_isSome standing.serial known.2 present).imp
    · exact fun _ _ sampled => ⟨body, known.1, sampled⟩
    · exact fun _ impossible => impossible
  rw [interpolate_eq_onDemand, onDemand]
  simp only [ends_bind, ends_get, ends_first, ends_checking, ends_attempting, ends_committing,
    checked, consumed, if_true]
  apply (between.ends_forStructures _ (fun _ _ => False) samples tally).imp
  · rintro _ after ⟨sampled, protocol⟩
    rw [protocol]
    exact ⟨sampled, rfl, StepProtocol.sameStep_of_consumeRequest consumed⟩
  · rintro _ ⟨-, -, _, _, -, impossible⟩
    exact impossible

/-- Sampling at the half time gives the half-time velocities. -/
theorem Standing.hasHalfVelocity {sources : List (RigidStructure shape α)} {f : Vec3 α → Vec3 α}
    (standing : c.Standing settings count (RelatedTo sources (Sampled f .half))) :
    c.Standing settings count (HasHalfVelocity (SampledFrom sources f)) := by
  apply standing.imp
  rintro part _ ⟨source, found, step, velocity, opened, fits, samples, rfl⟩
  exact ⟨_, rfl, source, found, step, opened, fits, samples⟩

end

/-! ## Reading -/

section

variable {c : Coordinator shape α} {sources : List (RigidStructure shape α)} {f : Vec3 α → Vec3 α}
  {factor query : α} {composite : CompositeField α} {window : StepWindow α}

/-- Half-time velocities are copied into fields of the same layouts. -/
theorem exists_copyVelocities_of_samples {bodies : List (RigidStructure shape α)} (factor : α)
    (held : List.Forall₂ (fun source body => ∃ step, body.step = some step ∧
      source.HalfSample f step.halfVelocity) sources bodies) :
    ∀ {targets : List (NodalField α)} (part : Nat),
      targets.map (·.layout) = sources.map (·.layout) →
        ∃ results, copyVelocities factor part bodies targets = (.ok (), results) ∧
          List.Forall₂ (RigidStructure.HalfSample fun x => (f x).scale factor) sources results := by
  induction held with
  | nil =>
      intro targets part layouts
      rw [List.map_nil, List.map_eq_nil_iff] at layouts
      subst layouts
      exact ⟨[], rfl, .nil⟩
  | @cons source body sources bodies first rest ih =>
      intro targets part layouts
      cases targets with
      | nil =>
          cases layouts
      | cons target targets =>
          rw [List.map_cons, List.map_cons, List.cons.injEq] at layouts
          rcases first with ⟨step, found, sample⟩
          rcases ih (part + 1) layouts.2 with ⟨results, copied, samples⟩
          have compatible : target.copyFrom step.halfVelocity = .ok step.halfVelocity := by
            rcases sample with ⟨_, -, same, -⟩
            rw [NodalField.copyFrom, NodalField.compatible, if_pos (by simp [same, layouts.1])]
          refine ⟨step.halfVelocity.scale factor :: results, ?_, .cons (sample.scale factor) samples⟩
          rw [copyVelocities, stepFields, found]
          simp only [compatible, copied]

/-- Half-time velocities can be read at the half time. -/
theorem Standing.exists_readVelocities {settings : Settings α}
    (standing : c.Standing settings sources.length (HasHalfVelocity (SampledFrom sources f)))
    (inStep : c.protocol.phase.inStep = true) (opened : c.protocol.window = some window)
    (matched : StepWindow.timesEqual c.protocol.tolerance query window.half = true)
    (layouts : composite.parts.map (·.layout) = sources.map (·.layout)) :
    ∃ result, c.readVelocities query factor composite = .ok () result ∧
      List.Forall₂ (RigidStructure.HalfSample fun x => (f x).scale factor) sources
        result.parts := by
  have held : List.Forall₂ (fun source body => ∃ step, body.step = some step ∧
      source.HalfSample f step.halfVelocity) sources c.structures := by
    have each : c.Standing settings sources.length (RelatedTo sources fun source body =>
        ∃ step, body.step = some step ∧ source.HalfSample f step.halfVelocity) := by
      apply standing.imp
      rintro part body ⟨step, found, source, source_eq, sample⟩
      exact ⟨source, source_eq, step, found, sample⟩
    exact each.forall₂
  have accepted : c.protocol.phase.after .getVelocity = .ok c.protocol.phase := by
    rw [Phase.after, if_pos inStep]
  have queried : (do c.protocol.queryVelocity query; c.checkParts composite) = .ok () := by
    have found : window.match? c.protocol.tolerance query [.half] = some .half :=
      List.find?_cons_of_pos matched
    have level : c.protocol.expectTime .getVelocity window query [.half] = .ok .half := by
      rw [StepProtocol.expectTime, found]
    have parts : composite.parts.length = c.count := by
      have lengths := congrArg List.length layouts
      rw [List.length_map, List.length_map] at lengths
      rw [lengths, count, standing.length_eq]
    rw [StepProtocol.queryVelocity, StepProtocol.check_eq_ok_iff.mpr ⟨_, accepted, opened⟩]
    simp only [bind, Except.bind, level, checkParts, if_pos parts]
    rfl
  rcases exists_copyVelocities_of_samples factor held 0 layouts with ⟨results, copied, samples⟩
  refine ⟨⟨results⟩, ?_, samples⟩
  rw [readVelocities, queried]
  simp only [copied]

end

/-! ## Runs -/

section

variable {settings : Settings α} {descriptions : List (StructureDescription shape α)} {seat : Seat}

/--
If a request is pending in a step whose structures have fields of the step, sampling a velocity
field at a time that is taken for one of the three times of the step consumes it and replaces the
velocity of the flow at this time, at the positions of this time.  If it is the half time, then, as
long as the step stays open and the flow is not sampled again, the velocities that are read at the
half time are those of the field at the half-time positions that the structures had when the
request was consumed, times a factor.
-/
theorem requested_velocities (serial : seat.size = 1) {c : Coordinator shape α}
    (registered : (register settings descriptions seat).alone = .ok c)
    (field : Vec3 α → α → Vec3 α) (tally : SpreadTally α) {calls : List (Call shape α)}
    {ready sampled : Coordinator shape α × SpreadTally α}
    (ready_eq : ready = runAlone (AnalyticFlow.transfer shape.dim field) (c, tally) calls)
    (prepared : ∀ body ∈ ready.1.structures, body.step.isSome = true) {window : StepWindow α}
    (opened : ready.1.protocol.window = some window)
    (pending : ready.1.protocol.velocityRequested = true) {time : α} {level : TimeLevel}
    (matched : window.match? settings.timeTolerance time [.current, .half, .new] = some level)
    (sampled_eq :
      sampled = serveAlone (AnalyticFlow.transfer shape.dim field) ready (.interpolate time)) :
    Call.Succeeds (.interpolate time) (AnalyticFlow.transfer shape.dim field) ready ∧
      sampled.1.protocol.velocityRequested = false ∧
        List.Forall₂ (Sampled (field · time) level) ready.1.structures sampled.1.structures ∧
          (level = .half →
            ∀ later, StaysOpen (AnalyticFlow.transfer shape.dim field) sampled later →
              (∀ time, .interpolate time ∉ later) → ∀ query factor composite,
                StepWindow.timesEqual ready.1.protocol.tolerance query window.half = true →
                  composite.parts.map (·.layout) = ready.1.structures.map (·.layout) →
                    ∃ result,
                      (runAlone (AnalyticFlow.transfer shape.dim field) sampled
                        later).1.readVelocities query factor composite = .ok () result ∧
                          List.Forall₂ (HalfSample fun x => (field x time).scale factor)
                            ready.1.structures result.parts) := by
  have start : c.Standing settings descriptions.length fun _ body => body.Sampleable := by
    apply (standing_of_register serial registered).1.imp
    rintro part body ⟨description, -, made⟩
    exact Sampleable.of_setUp serial made
  have standing : ready.1.Standing settings descriptions.length fun _ body => body.Sampleable := by
    rw [ready_eq]
    exact Standing.run_lasting Sampleable.lasting samplingKeeps_sampleable start
  have sound : ready.1.Sound := by
    rw [ready_eq]
    exact Sound.run (sound_of_holding (holding_of_register serial registered))
  have inStep : ready.1.protocol.phase.inStep = true :=
    sound.consistent.window_isSome_iff.mp (Option.isSome_of_eq_some opened)
  have served : (Call.serve (AnalyticFlow.transfer shape.dim field) (.interpolate time)).Ends ready
      (fun _ after => after.1.Standing settings descriptions.length
          (RelatedTo ready.1.structures (Sampled (field · time) level)) ∧
        after.1.protocol.velocityRequested = false ∧ ready.1.protocol.SameStep after.1.protocol)
      fun _ => False :=
    standing.ends_interpolate_level prepared inStep opened pending matched
  rcases succeeds_of_ends served with ⟨succeeds, held, consumed, same⟩
  rw [← sampled_eq, ← standing.length_eq] at held
  rw [← sampled_eq] at consumed same
  refine ⟨succeeds, consumed, held.forall₂, ?_⟩
  rintro rfl later stays unsampled query factor composite queried layouts
  rcases held.hasHalfVelocity.run_lastsInStep lastsInStep_hasHalfVelocity stays unsampled with
    ⟨kept, later⟩
  have whole := same.trans later
  apply kept.exists_readVelocities _ _ _ layouts
  · exact window
  · rw [whole.inStep_eq, inStep]
  · rw [whole.window_eq, opened]
  · rw [whole.tolerance_eq, queried]

/-- A flow that turns about the origin. -/
def vortex : FlowTransfer ℚ (SpreadTally ℚ) :=
  AnalyticFlow.transfer .two fun x _ => ⟨-x.y, x.x, 0⟩

/-- A composite field for the triangle. -/
def triangleField : CompositeField ℚ :=
  ⟨ofTriangle.structures.map fun body => .constant body.layout 0⟩

/-- The flow is sampled at the half time and read, or it is sampled at the end of the step. -/
theorem requested_velocities_predicted :
    let ready := runAlone vortex (ofTriangle, .empty) [.setVelocity 0 ⟨⟨2, 4, 0⟩, ⟨0, 0, 0⟩⟩,
      .preprocess 0 1, .requestInterpolation (1 / 2), .advance .forwardEuler 0 1]
    Call.Succeeds (.interpolate (1 / 2)) vortex ready ∧
      (∃ result, (runAlone vortex ready
          [.interpolate (1 / 2), .advance .midpoint 0 1]).1.readVelocities (1 / 2) 3
            triangleField = .ok () result ∧
        List.Forall₂ (HalfSample fun x => Vec3.scale ⟨-x.y, x.x, 0⟩ 3) ready.1.structures
          result.parts) ∧
      List.Forall₂ (Sampled (fun x => ⟨-x.y, x.x, 0⟩) .new) ready.1.structures
        (serveAlone vortex ready (.interpolate 1)).1.structures := by
  intro ready
  have registered : (register ⟨"triangle", 0, 1 / 10⟩ [triangle] Seat.alone).alone =
      .ok ofTriangle :=
    eq_ok_get _
  have prepared : ∀ body ∈ ready.1.structures, body.step.isSome = true := by
    decide +kernel
  have opened : ready.1.protocol.window = some (.between 0 1) := by
    decide +kernel
  have pending : ready.1.protocol.velocityRequested = true := by
    decide +kernel
  have half : (StepWindow.between 0 1).match? (1 / 10 : ℚ) (1 / 2) [.current, .half, .new] =
      some .half := by
    decide +kernel
  have new : (StepWindow.between 0 1).match? (1 / 10 : ℚ) 1 [.current, .half, .new] =
      some .new := by
    decide +kernel
  rcases requested_velocities rfl registered (fun x _ => ⟨-x.y, x.x, 0⟩) .empty rfl prepared opened
    pending half rfl with ⟨succeeds, -, -, reads⟩
  rcases requested_velocities rfl registered (fun x _ => ⟨-x.y, x.x, 0⟩) .empty rfl prepared opened
    pending new rfl with ⟨-, -, sampled, -⟩
  have stays : StaysOpen vortex (serveAlone vortex ready (.interpolate (1 / 2)))
      [.advance .midpoint 0 1] := by
    decide +kernel
  have result := reads rfl _ stays (by simp) (1 / 2) 3 triangleField (by decide +kernel)
    (by decide +kernel)
  exact ⟨succeeds, result, sampled⟩

/-- A flow with the same velocity everywhere. -/
def wind : FlowTransfer ℚ (SpreadTally ℚ) :=
  AnalyticFlow.transfer .two fun _ _ => ⟨1, 0, 0⟩

/--
A request for the half time is consumed by sampling the flow at the current time, after which the
half-time velocities are not those of the flow.
-/
theorem request_consumed_early :
    let requested := runAlone wind (ofTriangle, .empty)
      [.preprocess 0 1, .requestInterpolation (1 / 2)]
    let sampled := serveAlone wind requested (.interpolate 0)
    requested.1.protocol.velocityRequested = true ∧
      Call.Succeeds (.interpolate 0) wind requested ∧
        sampled.1.protocol.velocityRequested = false ∧
          ∃ result, sampled.1.readVelocities (1 / 2) 1 triangleField = .ok () result ∧
            ¬ List.Forall₂ (HalfSample fun _ => ⟨1, 0, 0⟩) requested.1.structures
              result.parts := by
  intro requested sampled
  have occupied : ∀ body ∈ requested.1.structures, 0 < body.mesh.vertices.size := by
    decide +kernel
  have first : (match sampled.1.readVelocities (1 / 2) 1 triangleField with
      | .ok _ result => result.parts.map fun part => (part.get 0).toOption
      | .error _ _ => []) = [some 0] := by
    decide +kernel
  refine ⟨by decide +kernel, by decide +kernel, by decide +kernel, ?_⟩
  cases read : sampled.1.readVelocities (1 / 2) 1 triangleField with
  | error stop after =>
      rw [read] at first
      cases first
  | ok _ result =>
      refine ⟨result, rfl, ?_⟩
      intro samples
      rw [read] at first
      rcases List.map_eq_singleton_iff.mp first with ⟨part, parts, entry⟩
      rw [parts, List.forall₂_cons_right_iff] at samples
      rcases samples with ⟨body, bodies, ⟨step, -, -, holds⟩, -, structures⟩
      rcases holds 0 (occupied body (structures ▸ List.mem_cons_self)) with ⟨x, -, value⟩
      rw [show part.get 0 = .ok 1 from value 0 (by decide)] at entry
      cases entry

end

end Coordinator

end ImmersedBody
