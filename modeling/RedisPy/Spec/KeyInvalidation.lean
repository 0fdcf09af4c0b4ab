import RedisPy.Spec.ClientCache

/-! The names of keys of both types. A `CacheKey` holds them as the caller gave them,
`_on_invalidation_callback` passes them on as the parser returned them, and the server knows
them as bytes. -/

namespace RedisPy

/-- The name of a key at the server, for a client with this encoding. -/
def KeyName.wire (encode : String → Bytes) : KeyName → Bytes
  | str s => encode s
  | bytes b => b

/-- One of the names of the entry is one of the keys. -/
def CacheKey.named (encode : String → Bytes) (redis_keys : List KeyName)
    (key : CacheKey) : Bool :=
  key.redis_keys.any fun name => redis_keys.any fun redis_key =>
    name.wire encode = redis_key.wire encode

/-- How many of the keys find the entry. -/
def CacheKey.timesFound (redis_keys : List KeyName) (key : CacheKey) : Nat :=
  redis_keys.countP fun redis_key =>
    match redis_key.decoded with
    | .ok name => name ∈ key.redis_keys
    | .error _ => false

end RedisPy
