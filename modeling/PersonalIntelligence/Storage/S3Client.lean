import PersonalIntelligence.Contracts.Events
import PersonalIntelligence.Library.Resumption

/-!
# `pil_storage/s3_client.py`

The client of the object store.  Its methods are programs over the three calls of the
`boto` client, and the store is a map from buckets and keys to objects.  `put_raw` writes
below a prefix and returns the key it has written; `get_raw` and `delete_bucket_object` use
the key they are given.
-/

namespace PersonalIntelligence
namespace Storage

open Resumption

abbrev Bytes := List UInt8

/-- The fields of `S3Client` that decide anything. -/
structure S3Client where
  accessKeyId : String
  secretAccessKey : String
  bucketRaw : String
  bucketMedia : String
  deriving DecidableEq, Repr

/-- `is_configured`. -/
def S3Client.isConfigured (s3 : S3Client) : Bool :=
  !s3.accessKeyId.isEmpty && !s3.secretAccessKey.isEmpty && !s3.bucketRaw.isEmpty &&
    !s3.bucketMedia.isEmpty

/-- The calls of the `boto` client. -/
inductive Cmd where
  | putObject (bucket key : String) (body : Bytes) (contentType : String)
  | getObject (bucket key : String)
  | deleteObject (bucket key : String)
  deriving DecidableEq, Repr

/-- What each call answers. -/
abbrev Ans : Cmd → Type
  | .getObject _ _ => Bytes
  | _ => Unit

abbrev Storing := Prog Cmd Ans Exc

/-- One call, awaited where it stands. -/
abbrev await (c : Cmd) : Storing (Ans c) := Prog.perform c

namespace S3Client

variable (s3 : S3Client)

/-- `put_bucket_object`. -/
def putBucketObject (bucket key : String) (body : Bytes)
    (contentType : String := "application/octet-stream") : Storing String := do
  await (.putObject bucket key body contentType)
  pure key

/-- `put_raw`. -/
def putRaw (key : String) (body : Bytes) (contentType : String := "application/json") :
    Storing String := putBucketObject s3.bucketRaw ("raw/" ++ key) body contentType

/-- `get_raw`. -/
def getRaw (key : String) : Storing Bytes := await (.getObject s3.bucketRaw key)

/-- `delete_bucket_object`. -/
def deleteBucketObject (bucket key : String) : Storing Unit := await (.deleteObject bucket key)

end S3Client

/-! ## The store -/

structure Object where
  body : Bytes
  contentType : String
  deriving DecidableEq, Repr

/-- The objects of every bucket, by their keys. -/
abbrev Buckets := String → String → Option Object

/-- The bucket and the key, with another object. -/
def Buckets.set (objects : Buckets) (bucket key : String) (object : Option Object) : Buckets :=
  Function.update objects bucket (Function.update (objects bucket) key object)

section Set

variable {objects : Buckets} {bucket key : String} {object : Option Object}

@[simp] theorem Buckets.set_same : objects.set bucket key object bucket key = object := by
  simp [Buckets.set]

theorem Buckets.set_of_ne_key {key' : String} (h : key' ≠ key) (bucket' : String) :
    objects.set bucket key object bucket' key' = objects bucket' key' := by
  by_cases hbucket : bucket' = bucket
  · subst hbucket
    simp [Buckets.set, h]
  · simp [Buckets.set, hbucket]

theorem Buckets.set_of_ne_bucket {bucket' : String} (h : bucket' ≠ bucket) (key' : String) :
    objects.set bucket key object bucket' key' = objects bucket' key' := by
  simp [Buckets.set, h]

end Set

/-- What a call does if the store answers it.  There is no object to get under a key
that has none, and nothing to delete. -/
def Cmd.effect : (c : Cmd) → Buckets → Except Exc (Ans c) × Buckets
  | .putObject bucket key body contentType, objects =>
    (.ok (), objects.set bucket key (some ⟨body, contentType⟩))
  | .getObject bucket key, objects =>
    (match objects bucket key with
      | some object => .ok object.body
      | none => .error .callFailed, objects)
  | .deleteObject bucket key, objects => (.ok (), objects.set bucket key none)

/-- The store when it answers every call. -/
def serving : Handler Cmd Ans Exc Buckets := Cmd.effect

section Serving

variable (s3 : S3Client) (objects : Buckets)

/-- `put_raw` returns the key under which it has written. -/
theorem exec_putRaw (key : String) (body : Bytes) (contentType : String) :
    exec serving (s3.putRaw key body contentType) objects =
      (.ok ("raw/" ++ key),
        objects.set s3.bucketRaw ("raw/" ++ key) (some ⟨body, contentType⟩)) := rfl

/-- `get_raw` returns the bytes under the key as it is. -/
theorem exec_getRaw_eq_ok_iff (key : String) (body : Bytes) :
    (exec serving (s3.getRaw key) objects).1 = .ok body ↔
      ∃ contentType, objects s3.bucketRaw key = some ⟨body, contentType⟩ := by
  have hexec : exec serving (s3.getRaw key) objects =
      serving (.getObject s3.bucketRaw key) objects := exec_perform ..
  rw [hexec]
  simp only [serving, Cmd.effect]
  rcases objects s3.bucketRaw key with _ | ⟨body', contentType'⟩
  · simp
  · simp

theorem exec_deleteBucketObject (bucket key : String) :
    exec serving (S3Client.deleteBucketObject bucket key) objects =
      (.ok (), objects.set bucket key none) := rfl

end Serving

end Storage
end PersonalIntelligence
