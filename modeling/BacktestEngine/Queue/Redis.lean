import Mathlib.Logic.Function.Basic
import Mathlib.Data.List.Basic

/-! # Strings and lists of the store

Each command is one atomic step on two families of keys. Lists are written from
the head, so the tail is the oldest element.
-/

namespace BacktestEngine

structure RedisStore where
  strings : String → Option String
  lists : String → List String

namespace RedisStore

def empty : RedisStore := ⟨fun _ => none, fun _ => []⟩

/-- SET -/
def set (store : RedisStore) (key value : String) : RedisStore :=
  { store with strings := Function.update store.strings key (some value) }

/-- GETDEL -/
def getDelete (store : RedisStore) (key : String) : Option String × RedisStore :=
  (store.strings key, { store with strings := Function.update store.strings key none })

/-- LPUSH -/
def listPushFront (store : RedisStore) (key value : String) : RedisStore :=
  { store with lists := Function.update store.lists key (value :: store.lists key) }

/-- RPOP -/
def listPopBack (store : RedisStore) (key : String) : Option String × RedisStore :=
  ((store.lists key).getLast?,
    { store with lists := Function.update store.lists key (store.lists key).dropLast })

/-- LINDEX at the tail -/
def listTail (store : RedisStore) (key : String) : Option String := (store.lists key).getLast?

/-- LREM of every occurrence -/
def listRemove (store : RedisStore) (key value : String) : RedisStore :=
  let kept := (store.lists key).filter fun element => element ≠ value
  { store with lists := Function.update store.lists key kept }

variable (store : RedisStore) (key value k : String)

@[simp] theorem set_strings : (store.set key value).strings k =
    if k = key then some value else store.strings k := Function.update_apply ..

@[simp] theorem getDelete_strings : (store.getDelete key).2.strings k =
    if k = key then none else store.strings k := Function.update_apply ..

@[simp] theorem listPushFront_lists : (store.listPushFront key value).lists k =
    if k = key then value :: store.lists key else store.lists k := Function.update_apply ..

@[simp] theorem listPopBack_lists : (store.listPopBack key).2.lists k =
    if k = key then (store.lists key).dropLast else store.lists k := Function.update_apply ..

@[simp] theorem listRemove_lists : (store.listRemove key value).lists k =
    if k = key then (store.lists key).filter (fun element => element ≠ value)
    else store.lists k := Function.update_apply ..

end RedisStore

end BacktestEngine
