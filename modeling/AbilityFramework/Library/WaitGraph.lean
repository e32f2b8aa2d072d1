import Mathlib.Logic.Function.Basic
import Mathlib.Logic.Relation

/-! # Parties that wait for each other

Each party waits for at most one other.  A ring is a chain of waits that leads from a party back to itself.
Ending a wait makes no ring; beginning one makes a ring exactly if a chain leads from the party waited
for to the one that begins to wait (`ring_begin_iff`). -/

namespace AbilityFramework.Library

variable {Party : Type*}

/-- Whom each party waits for. -/
abbrev Waits (Party : Type*) := Party → Option Party

namespace Waits

def On (waits : Waits Party) (party other : Party) : Prop := waits party = some other

/-- A chain of waits, of any length, leads from the one to the other. -/
def Leads (waits : Waits Party) : Party → Party → Prop := Relation.ReflTransGen waits.On

def InRing (waits : Waits Party) (party : Party) : Prop := Relation.TransGen waits.On party party

def HasRing (waits : Waits Party) : Prop := ∃ party, waits.InRing party

/-- A member of a ring waits for a member of the ring. -/
theorem InRing.next {waits : Waits Party} {party : Party} (ring : waits.InRing party) :
    ∃ other, waits party = some other ∧ waits.InRing other := by
  obtain ⟨other, first, chain⟩ := Relation.TransGen.head'_iff.mp ring
  exact ⟨other, first, Relation.TransGen.tail' chain first⟩

variable [DecidableEq Party] {waits : Waits Party} {party receiver : Party}

theorem hasRing_of_end (ring : Waits.HasRing (Function.update waits party none)) : waits.HasRing := by
  obtain ⟨member, ring⟩ := ring
  refine ⟨member, Relation.TransGen.mono ?_ _ _ ring⟩
  intro first second on
  rw [On, Function.update_apply] at on
  split at on
  · cases on
  · exact on

theorem on_begin {first second : Party} (on : Waits.On (Function.update waits party (some receiver)) first second) :
    first = party ∧ second = receiver ∨ waits.On first second := by
  rw [On, Function.update_apply] at on
  split at on
  · rename_i same
    exact .inl ⟨same, (Option.some.inj on).symm⟩
  · exact .inr on

/-- A chain after a wait has begun goes through that wait at most once, or there was a chain back to it. -/
theorem chain_begin {first last : Party}
    (chain : Relation.TransGen (Waits.On (Function.update waits party (some receiver))) first last) :
    Relation.TransGen waits.On first last ∨ waits.Leads first party ∧ waits.Leads receiver last ∨
      waits.Leads receiver party := by
  induction chain with
  | single step =>
    obtain ⟨rfl, rfl⟩ | step := on_begin step
    · exact .inr (.inl ⟨.refl, .refl⟩)
    · exact .inl (.single step)
  | tail _ step inductionHypothesis =>
    obtain ⟨rfl, rfl⟩ | step := on_begin step
    · obtain before | ⟨_, after⟩ | back := inductionHypothesis
      · exact .inr (.inl ⟨before.to_reflTransGen, .refl⟩)
      · exact .inr (.inr after)
      · exact .inr (.inr back)
    · obtain before | ⟨before, after⟩ | back := inductionHypothesis
      · exact .inl (before.tail step)
      · exact .inr (.inl ⟨before, after.tail step⟩)
      · exact .inr (.inr back)

theorem ring_begin_iff (idle : waits party = none) :
    Waits.HasRing (Function.update waits party (some receiver)) ↔ waits.HasRing ∨ waits.Leads receiver party := by
  -- The party did not wait before, so every earlier wait is still there.
  have kept : ∀ first second, waits.On first second →
      Waits.On (Function.update waits party (some receiver)) first second := by
    intro first second on
    have different : first ≠ party := by
      rintro rfl
      rw [On, idle] at on
      cases on
    rw [On, Function.update_of_ne different]
    exact on
  constructor
  · rintro ⟨member, ring⟩
    obtain before | ⟨before, after⟩ | back := chain_begin ring
    · exact .inl ⟨member, before⟩
    · exact .inr (after.trans before)
    · exact .inr back
  · rintro (⟨member, ring⟩ | back)
    · exact ⟨member, Relation.TransGen.mono kept _ _ ring⟩
    · refine ⟨party, Relation.TransGen.head' ?_ (Relation.ReflTransGen.mono kept _ _ back)⟩
      rw [On, Function.update_self]

end Waits

end AbilityFramework.Library
