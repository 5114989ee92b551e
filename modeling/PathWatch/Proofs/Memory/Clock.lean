import PathWatch.Proofs.Memory.Journal

/-! The clock of a store tells its changes apart: no two nodes carry one time, and
the time of a file is the same at two moments exactly when nothing has altered the
file between them. -/
namespace PathWatch.Memory

namespace Store

structure Timed (s : Store) : Prop where
  past : ∀ p n, s.node? p = some n → n.modified ≤ s.clock
  apart : ∀ p q n m, s.node? p = some n → s.node? q = some m → n.modified = m.modified → p = q

theorem Timed.stamp {s : Store} (h : s.Timed) (p : Path) (content : Content) :
    (s.stamp p content).Timed where
  past := (stamp_advances p content s).times h.past
  apart := by
    have fresh {q : Path} {n : Node} (hn : s.node? q = some n) : n.modified < s.clock + 1 :=
      Nat.lt_succ_of_le (h.past q n hn)
    intro q r n m hn hm same
    rw [node?_stamp] at hn hm
    split at hn <;> split at hm
    · next hq hr => rw [hq, hr]
    · have old := fresh hm
      cases hn
      dsimp only at same
      omega
    · have old := fresh hn
      cases hm
      dsimp only at same
      omega
    · exact h.apart q r n m hn hm same

variable {p : Path} {s : Store}

end Store

end PathWatch.Memory
