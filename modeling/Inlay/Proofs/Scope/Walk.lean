import Inlay.Scope.Walk

namespace Inlay

@[simp] theorem Traced.regions_after {ε α : Type} (event : Event) (traced : Traced ε α) :
    (traced.after event).regions = event.region?.toList ++ traced.regions := by
  cases event <;> rfl

@[simp] theorem Traced.regions_mapError {ε ζ α : Type} (f : ε → ζ) (traced : Traced ε α) :
    (traced.mapError f).regions = traced.regions := rfl

@[simp] theorem Traced.regions_ok {ε α : Type} (value : α) :
    (Traced.ok value : Traced ε α).regions = [] := rfl

@[simp] theorem Traced.regions_fail {ε α : Type} (fault : ε) :
    (Traced.fail fault : Traced ε α).regions = [] := rfl

@[simp] theorem Traced.outcome_ok {ε α : Type} (value : α) :
    (Traced.ok value : Traced ε α).outcome = .ok value := rfl

@[simp] theorem Traced.outcome_fail {ε α : Type} (fault : ε) :
    (Traced.fail fault : Traced ε α).outcome = .error fault := rfl

namespace Scope

section Steps

variable {data : Fields} {frames : List Frame} {directive : Directive} {rest : List Directive}

theorem walk_beginBlock (isBegin : directive.command = .beginBlock) :
    walk data frames (directive :: rest) =
      (walk data (⟨directive, data⟩ :: frames) rest).after (.opened (frames.length + 1)) := by
  rw [walk.eq_def]
  simp only [isBegin]

theorem walk_endBlock_root (isEnd : directive.command = .endBlock) :
    walk data [] (directive :: rest) = (Traced.ok ()).after (.stopped directive.start) := by
  rw [walk.eq_def]
  simp only [isEnd]

theorem walk_endBlock {frame : Frame} (isEnd : directive.command = .endBlock) :
    walk data (frame :: frames) (directive :: rest) =
      (walk frame.outerData frames rest).after (.closed frames.length) := by
  rw [walk.eq_def]
  simp only [isEnd]

theorem walk_assign {fields : Fields} (isAssign : directive.command = .assign fields) :
    walk data frames (directive :: rest) =
      (walk (data.overlay fields) frames rest).after (.assigned (data.overlay fields)) := by
  rw [walk.eq_def]
  simp only [isAssign]

theorem walk_merge {fields : Fields} (isMerge : directive.command = .merge fields) :
    walk data frames (directive :: rest) =
      (walk (data.merge fields) frames rest).after (.merged (data.merge fields)) := by
  rw [walk.eq_def]
  simp only [isMerge]

theorem walk_emit_last {arguments : List Value} (isEmit : directive.command = .emit arguments) :
    walk data frames [directive] = .fail ⟨.unclosedRegion, directive.start⟩ := by
  rw [walk.eq_def]
  simp only [isEmit]

theorem walk_emit {arguments : List Value} {closer : Directive}
    (isEmit : directive.command = .emit arguments) (isEnd : closer.command = .endBlock) :
    walk data frames (directive :: closer :: rest) =
      (walk data frames rest).after (.region (region directive arguments data closer)) := by
  rw [walk.eq_def]
  simp only [isEmit, isEnd]

theorem walk_emit_disturbed {arguments : List Value} {other : Directive}
    (isEmit : directive.command = .emit arguments) (notEnd : other.command ≠ .endBlock) :
    walk data frames (directive :: other :: rest) = .fail ⟨.directiveInRegion, other.start⟩ := by
  rw [walk.eq_def]
  simp only [isEmit]

end Steps

/-- Regions in the order in which directives delimit them. -/
inductive Delimits : List Directive → List Region → Prop
  | done {directives : List Directive} : Delimits directives []
  | pass {directive : Directive} {rest : List Directive} {regions : List Region} :
      Delimits rest regions → Delimits (directive :: rest) regions
  | found {emitter closer : Directive} {arguments : List Value} (data : Fields)
      {rest : List Directive} {regions : List Region} :
      emitter.command = .emit arguments → closer.command = .endBlock → Delimits rest regions →
      Delimits (emitter :: closer :: rest) (region emitter arguments data closer :: regions)

theorem delimits_regions_walk (data : Fields) (frames : List Frame)
    (directives : List Directive) :
    Delimits directives (walk data frames directives).regions := by
  fun_induction walk data frames directives with
  | case1 => exact .done
  | case2 => exact .done
  | case3 data frames directive rest isBegin induction => exact .pass induction
  | case4 => exact .done
  | case5 data directive rest isEnd frame outer induction => exact .pass induction
  | case6 data frames directive rest fields isAssign updated induction => exact .pass induction
  | case7 data frames directive rest fields isMerge updated induction => exact .pass induction
  | case8 => exact .done
  | case9 data frames directive arguments isEmit closer rest isEnd induction =>
      exact .found data isEmit isEnd induction
  | case10 => exact .done

theorem Delimits.exists_directives {directives : List Directive} {regions : List Region}
    (delimits : Delimits directives regions) {found : Region} (member : found ∈ regions) :
    ∃ (before after : List Directive) (emitter closer : Directive) (arguments : List Value)
      (data : Fields),
      directives = before ++ emitter :: closer :: after ∧
      emitter.command = .emit arguments ∧ closer.command = .endBlock ∧
      found = region emitter arguments data closer := by
  induction delimits with
  | done => simp at member
  | @pass directive rest regions _ induction =>
      obtain ⟨before, after, emitter, closer, arguments, data, rfl, delimited⟩ := induction member
      exact ⟨directive :: before, after, emitter, closer, arguments, data, rfl, delimited⟩
  | @found emitter closer arguments data rest regions isEmit isEnd _ induction =>
      rcases List.mem_cons.mp member with rfl | later
      · exact ⟨[], rest, emitter, closer, arguments, data, rfl, isEmit, isEnd, rfl⟩
      · obtain ⟨before, after, emitter', closer', arguments', data', rfl, delimited⟩ :=
          induction later
        exact ⟨emitter :: closer :: before, after, emitter', closer', arguments', data', rfl,
          delimited⟩

theorem Delimits.pairwise {directives : List Directive} {regions : List Region}
    (delimits : Delimits directives regions)
    (extended : ∀ directive ∈ directives, directive.start < directive.stop)
    (ordered : directives.Pairwise fun earlier later => earlier.stop < later.start) :
    regions.Pairwise fun earlier later => earlier.stop < later.start := by
  induction delimits with
  | done => exact .nil
  | pass _ induction =>
      exact induction (fun directive member => extended directive (List.mem_cons_of_mem _ member))
        (List.pairwise_cons.mp ordered).2
  | @found emitter closer arguments data rest regions _ _ delimits induction =>
      obtain ⟨afterCloser, orderedRest⟩ :=
        List.pairwise_cons.mp (List.pairwise_cons.mp ordered).2
      have extendedRest : ∀ directive ∈ rest, directive.start < directive.stop :=
        fun directive member => extended directive (by simp [member])
      refine .cons ?_ (induction extendedRest orderedRest)
      intro later member
      obtain ⟨before, after, emitter', closer', arguments', data', split, _, _, rfl⟩ :=
        delimits.exists_directives member
      have inRest : emitter' ∈ rest := by simp [split]
      calc
        closer.start < closer.stop := extended closer (by simp)
        _ < emitter'.start := afterCloser emitter' inRest
        _ < emitter'.stop := extendedRest emitter' inRest

end Scope

def Directive.relocate (move : Int → Int) (directive : Directive) : Directive :=
  { directive with start := move directive.start, stop := move directive.stop }

@[simp] theorem Directive.command_relocate (move : Int → Int) (directive : Directive) :
    (directive.relocate move).command = directive.command := rfl

def Region.relocate (move : Int → Int) (region : Region) : Region :=
  { region with start := move region.start, stop := move region.stop }

def Event.relocate (move : Int → Int) : Event → Event
  | .directive kind offset => .directive kind (move offset)
  | .stopped offset => .stopped (move offset)
  | .region found => .region (found.relocate move)
  | event => event

theorem Event.filterMap_region?_relocate (move : Int → Int) (events : List Event) :
    (events.map (relocate move)).filterMap region? =
      (events.filterMap region?).map (Region.relocate move) := by
  have same : region? ∘ relocate move = fun event => event.region?.map (Region.relocate move) := by
    funext event
    cases event <;> rfl
  rw [List.filterMap_map, same, List.map_filterMap]

namespace Scope

def Frame.relocate (move : Int → Int) (frame : Frame) : Frame :=
  { frame with opener := frame.opener.relocate move }

def Fault.relocate (move : Int → Int) (fault : Fault) : Fault :=
  { fault with offset := move fault.offset }

def relocated (move : Int → Int) (traced : Traced Fault Unit) : Traced Fault Unit :=
  ⟨traced.events.map (Event.relocate move), traced.outcome.mapError (Fault.relocate move)⟩

theorem walk_relocate (move : Int → Int) (data : Fields) (frames : List Frame)
    (directives : List Directive) :
    walk data (frames.map (Frame.relocate move)) (directives.map (Directive.relocate move)) =
      relocated move (walk data frames directives) := by
  fun_induction walk data frames directives with
  | case1 => rfl
  | case2 => rfl
  | case3 data frames directive rest isBegin induction =>
      rw [List.map_cons, walk_beginBlock ((directive.command_relocate move).trans isBegin),
        List.length_map]
      exact congrArg (Traced.after _) induction
  | case4 data directive rest isEnd =>
      rw [List.map_cons, List.map_nil,
        walk_endBlock_root ((directive.command_relocate move).trans isEnd)]
      rfl
  | case5 data directive rest isEnd frame outer induction =>
      rw [List.map_cons, List.map_cons,
        walk_endBlock ((directive.command_relocate move).trans isEnd), List.length_map]
      exact congrArg (Traced.after _) induction
  | case6 data frames directive rest fields isAssign updated induction =>
      rw [List.map_cons, walk_assign ((directive.command_relocate move).trans isAssign)]
      exact congrArg (Traced.after _) induction
  | case7 data frames directive rest fields isMerge updated induction =>
      rw [List.map_cons, walk_merge ((directive.command_relocate move).trans isMerge)]
      exact congrArg (Traced.after _) induction
  | case8 data frames directive arguments isEmit =>
      rw [List.map_cons, List.map_nil,
        walk_emit_last ((directive.command_relocate move).trans isEmit)]
      rfl
  | case9 data frames directive arguments isEmit closer rest isEnd induction =>
      rw [List.map_cons, List.map_cons,
        walk_emit ((directive.command_relocate move).trans isEmit)
          ((closer.command_relocate move).trans isEnd)]
      exact congrArg (Traced.after _) induction
  | case10 data frames directive arguments isEmit closer rest notEnd =>
      rw [List.map_cons, List.map_cons,
        walk_emit_disturbed ((directive.command_relocate move).trans isEmit)
          (fun isEnd => notEnd ((closer.command_relocate move).symm.trans isEnd))]
      rfl

end Scope

end Inlay
