import Mathlib

/-! One Redis key holding a value with a time to live, under a clock in seconds. An
expired value stays stored until it is overwritten; every command sees the key as
absent from then on. -/
namespace Omi.Foundation

structure RedisEntry (α : Type*) where
  value : α
  expiresAt : ℚ
  deriving DecidableEq, Repr

abbrev RedisKey (α : Type*) := Option (RedisEntry α)

namespace RedisKey
variable {α : Type*}

/-- `GET`. -/
def get (key : RedisKey α) (clock : ℚ) : Option α :=
  match key with
  | some entry => if clock < entry.expiresAt then some entry.value else none
  | none => none

/-- `SET key value EX ttl`. -/
def setEx (value : α) (clock ttl : ℚ) : RedisKey α := some ⟨value, clock + ttl⟩

/-- `EXPIRE key ttl`. -/
def expire (key : RedisKey α) (clock ttl : ℚ) : RedisKey α :=
  (key.get clock).elim key fun value => setEx value clock ttl

/-- The value last stored, expired or not. -/
def stored (key : RedisKey α) : Option α := key.map RedisEntry.value

@[simp] theorem stored_setEx (value : α) (clock ttl : ℚ) :
    (setEx value clock ttl).stored = some value := rfl

@[simp] theorem stored_none : stored (none : RedisKey α) = none := rfl

theorem stored_of_get {key : RedisKey α} {clock : ℚ} {value : α}
    (h : key.get clock = some value) : key.stored = some value := by
  cases key with
  | none => simp [get] at h
  | some entry =>
    simp only [get] at h
    split_ifs at h
    simpa [stored] using h

@[simp] theorem stored_expire (key : RedisKey α) (clock ttl : ℚ) :
    (key.expire clock ttl).stored = key.stored := by
  cases hget : key.get clock with
  | none => simp [expire, hget]
  | some value => simp [expire, hget, stored_of_get hget]

end RedisKey
end Omi.Foundation
