import Inlay.Directive.Command
import Inlay.Value.Update

/-!
Sequences of directives as a language of brackets. An end closes a block or a region, and a sequence
is balanced if it closes all that it opens and nothing else. What remains of a sequence without its
complete blocks and regions is found from its last directive back to its first.
-/

namespace Inlay

namespace Directive

def IsUpdate (directive : Directive) : Prop :=
  (∃ fields, directive.command = .assign fields) ∨ ∃ fields, directive.command = .merge fields

def IsOpener (directive : Directive) : Prop :=
  directive.command = .beginBlock ∨ ∃ arguments, directive.command = .emit arguments

def update (directive : Directive) (data : Fields) : Fields :=
  match directive.command with
  | .assign fields => data.overlay fields
  | .merge fields => data.merge fields
  | _ => data

theorem IsUpdate.command_ne_endBlock {directive : Directive}
    (isUpdate : directive.IsUpdate) : directive.command ≠ .endBlock := by
  rcases isUpdate with ⟨fields, isAssign⟩ | ⟨fields, isMerge⟩
  · simp [isAssign]
  · simp [isMerge]

end Directive

namespace Scope

/-- Updates, regions and blocks in any order, and the same within the blocks. -/
inductive Balanced : List Directive → Prop
  | nil : Balanced []
  | update {before : List Directive} {directive : Directive} :
      Balanced before → directive.IsUpdate → Balanced (before ++ [directive])
  | region {before : List Directive} {emitter closer : Directive} {arguments : List Value} :
      Balanced before → emitter.command = .emit arguments → closer.command = .endBlock →
      Balanced (before ++ [emitter, closer])
  | block {before inner : List Directive} {opener closer : Directive} :
      Balanced before → opener.command = .beginBlock → Balanced inner →
      closer.command = .endBlock → Balanced (before ++ (opener :: inner ++ [closer]))

/-- Balanced sequences in a row, each but the first in a block that is not closed. -/
inductive Open : List Directive → Prop
  | balanced {directives : List Directive} : Balanced directives → Open directives
  | begun {before inner : List Directive} {opener : Directive} :
      Open before → opener.command = .beginBlock → Balanced inner →
      Open (before ++ opener :: inner)

theorem Balanced.append {before after : List Directive} (balanced : Balanced before)
    (more : Balanced after) : Balanced (before ++ after) := by
  induction more with
  | nil => rwa [List.append_nil]
  | update _ isUpdate induction =>
      rw [← List.append_assoc]
      exact .update induction isUpdate
  | region _ isEmit isEnd induction =>
      rw [← List.append_assoc]
      exact .region induction isEmit isEnd
  | block _ isBegin inner isEnd induction _ =>
      rw [← List.append_assoc]
      exact .block induction isBegin inner isEnd

/-- Puts a directive in front of what remains of later ones, some of whose ends close something that
comes earlier. -/
def absorb (directive : Directive) (later : Nat × List Directive) : Nat × List Directive :=
  match directive.command, later with
  | .endBlock, (closers, kept) => (closers + 1, kept)
  | .beginBlock, (closers + 1, kept) | .emit _, (closers + 1, kept) => (closers, kept)
  | _, (0, kept) => (0, directive :: kept)
  | _, (closers + 1, kept) => (closers + 1, kept)

def remaining (directives : List Directive) : List Directive :=
  (directives.foldr absorb (0, [])).2

/-- The data that a sequence of directives leaves. -/
def visible (data : Fields) (directives : List Directive) : Fields :=
  (remaining directives).foldl (fun data directive => directive.update data) data

section Absorb

variable {directive : Directive}

theorem absorb_end (isEnd : directive.command = .endBlock) (closers : Nat)
    (kept : List Directive) : absorb directive (closers, kept) = (closers + 1, kept) := by
  simp only [absorb, isEnd]

theorem absorb_opener (isOpener : directive.IsOpener) (closers : Nat) (kept : List Directive) :
    absorb directive (closers + 1, kept) = (closers, kept) := by
  rcases isOpener with isBegin | ⟨arguments, isEmit⟩
  · simp only [absorb, isBegin]
  · simp only [absorb, isEmit]

theorem absorb_update (isUpdate : directive.IsUpdate) (closers : Nat) (kept : List Directive) :
    absorb directive (closers + 1, kept) = (closers + 1, kept) := by
  rcases isUpdate with ⟨fields, isAssign⟩ | ⟨fields, isMerge⟩
  · simp only [absorb, isAssign]
  · simp only [absorb, isMerge]

theorem absorb_pending (directive : Directive) (closers : Nat) (kept : List Directive) :
    (absorb directive (closers + 1, kept)).2 = kept := by
  cases command : directive.command <;> simp only [absorb, command]

theorem absorb_kept (notEnd : directive.command ≠ .endBlock) (kept : List Directive) :
    absorb directive (0, kept) = (0, directive :: kept) := by
  cases command : directive.command with
  | endBlock => contradiction
  | beginBlock => simp only [absorb, command]
  | assign fields => simp only [absorb, command]
  | merge fields => simp only [absorb, command]
  | emit arguments => simp only [absorb, command]

end Absorb

theorem remaining_sublist (directives : List Directive) :
    (remaining directives).Sublist directives := by
  induction directives with
  | nil => exact .slnil
  | cons first rest induction =>
      rw [remaining] at induction ⊢
      rw [List.foldr_cons]
      generalize rest.foldr absorb (0, []) = later at induction ⊢
      obtain ⟨_ | closers, kept⟩ := later
      · by_cases isEnd : first.command = .endBlock
        · rw [absorb_end isEnd]
          exact induction.cons first
        · rw [absorb_kept isEnd]
          exact induction.cons_cons first
      · rw [absorb_pending]
        exact induction.cons first

theorem foldr_absorb_kept (directives : List Directive) (closers : Nat) (kept : List Directive) :
    directives.foldr absorb (closers, kept) =
      ((directives.foldr absorb (closers, [])).1,
        (directives.foldr absorb (closers, [])).2 ++ kept) := by
  induction directives with
  | nil => rfl
  | cons directive rest induction =>
      rw [List.foldr_cons, List.foldr_cons, induction]
      generalize rest.foldr absorb (closers, []) = later
      obtain ⟨_ | unmatched, remained⟩ := later <;>
        cases command : directive.command <;> simp [absorb, command]

theorem Balanced.foldr_absorb_closed {directives : List Directive}
    (balanced : Balanced directives) (closers : Nat) (kept : List Directive) :
    directives.foldr absorb (closers + 1, kept) = (closers + 1, kept) := by
  induction balanced generalizing closers with
  | nil => rfl
  | update _ isUpdate induction =>
      rw [List.foldr_append, List.foldr_cons, List.foldr_nil, absorb_update isUpdate, induction]
  | region _ isEmit isEnd induction =>
      rw [List.foldr_append, List.foldr_cons, List.foldr_cons, List.foldr_nil, absorb_end isEnd,
        absorb_opener (.inr ⟨_, isEmit⟩), induction]
  | block _ isBegin _ isEnd induction inside =>
      rw [List.foldr_append, List.cons_append, List.foldr_cons, List.foldr_append,
        List.foldr_cons, List.foldr_nil, absorb_end isEnd, inside,
        absorb_opener (.inl isBegin), induction]

theorem foldr_absorb_block {opener closer : Directive} {inner : List Directive}
    (isBegin : opener.command = .beginBlock) (balanced : Balanced inner)
    (isEnd : closer.command = .endBlock) (later : Nat × List Directive) :
    (opener :: inner ++ [closer]).foldr absorb later = later := by
  obtain ⟨closers, kept⟩ := later
  rw [List.cons_append, List.foldr_cons, List.foldr_append, List.foldr_cons, List.foldr_nil,
    absorb_end isEnd, balanced.foldr_absorb_closed, absorb_opener (.inl isBegin)]

theorem foldr_absorb_region {emitter closer : Directive} {arguments : List Value}
    (isEmit : emitter.command = .emit arguments) (isEnd : closer.command = .endBlock)
    (later : Nat × List Directive) :
    [emitter, closer].foldr absorb later = later := by
  obtain ⟨closers, kept⟩ := later
  rw [List.foldr_cons, List.foldr_cons, List.foldr_nil, absorb_end isEnd,
    absorb_opener (.inr ⟨_, isEmit⟩)]

def Settled (directives : List Directive) : Prop :=
  directives.foldr absorb (0, []) = (0, remaining directives)

theorem remaining_append {after : List Directive} (settled : Settled after)
    (before : List Directive) :
    remaining (before ++ after) = remaining before ++ remaining after := by
  rw [remaining, List.foldr_append, settled, foldr_absorb_kept]
  rfl

theorem Settled.append {before after : List Directive} (first : Settled before)
    (second : Settled after) : Settled (before ++ after) := by
  rw [Settled, remaining_append second, List.foldr_append, second, foldr_absorb_kept, first]

theorem settled_singleton {directive : Directive} (notEnd : directive.command ≠ .endBlock) :
    Settled [directive] ∧ remaining [directive] = [directive] := by
  have absorbed : [directive].foldr absorb (0, []) = (0, [directive]) := absorb_kept notEnd []
  have remained : remaining [directive] = [directive] := congrArg Prod.snd absorbed
  exact ⟨by rw [Settled, absorbed, remained], remained⟩

theorem Balanced.settled {directives : List Directive} (balanced : Balanced directives) :
    Settled directives := by
  induction balanced with
  | nil => rfl
  | update _ isUpdate induction =>
      exact induction.append (settled_singleton isUpdate.command_ne_endBlock).1
  | region _ isEmit isEnd induction =>
      rw [Settled, remaining, List.foldr_append, foldr_absorb_region isEmit isEnd, induction]
  | block _ isBegin inner isEnd induction _ =>
      rw [Settled, remaining, List.foldr_append, foldr_absorb_block isBegin inner isEnd, induction]

theorem Open.settled {directives : List Directive} (opened : Open directives) :
    Settled directives := by
  induction opened with
  | balanced balanced => exact balanced.settled
  | @begun before inner opener _ isBegin balanced induction =>
      have begins : Settled [opener] := (settled_singleton (by simp [isBegin])).1
      exact induction.append (begins.append balanced.settled)

theorem visible_append {after : List Directive} (settled : Settled after) (data : Fields)
    (before : List Directive) :
    visible data (before ++ after) = visible (visible data before) after := by
  rw [visible, remaining_append settled, List.foldl_append]
  rfl

theorem visible_singleton {directive : Directive} (notEnd : directive.command ≠ .endBlock)
    (data : Fields) : visible data [directive] = directive.update data := by
  rw [visible, (settled_singleton notEnd).2]
  rfl

theorem visible_region {emitter closer : Directive} {arguments : List Value}
    (isEmit : emitter.command = .emit arguments) (isEnd : closer.command = .endBlock)
    (data : Fields) : visible data [emitter, closer] = data := by
  rw [visible, remaining, foldr_absorb_region isEmit isEnd]
  rfl

theorem visible_block {opener closer : Directive} {inner : List Directive}
    (isBegin : opener.command = .beginBlock) (balanced : Balanced inner)
    (isEnd : closer.command = .endBlock) (data : Fields) :
    visible data (opener :: inner ++ [closer]) = data := by
  rw [visible, remaining, foldr_absorb_block isBegin balanced isEnd]
  rfl

end Scope

end Inlay
