import DidToken.Assoc
import DidToken.Bytes
import DidToken.Clock
import DidToken.Text.Characters
import DidToken.Text.Quoted
import DidToken.Text.Hex
import DidToken.Text.Base64
import DidToken.Text.Base58
import DidToken.Decimal.Shortest
import DidToken.Decimal.Layout
import DidToken.Json.Value
import DidToken.Json.Printer
import DidToken.Json.Description
import DidToken.Json.Reader
import DidToken.Json.Number
import DidToken.Json.Parser
import DidToken.Json.Record
import DidToken.Hash.Sha256
import DidToken.Hash.Keccak256
import DidToken.Secp256k1.Field
import DidToken.Secp256k1.Point
import DidToken.Secp256k1.Ecdsa
import DidToken.Secp256k1.Nonce
import DidToken.Algorithm
import DidToken.Did
import DidToken.PublicKey
import DidToken.Signature
import DidToken.KeyPair
import DidToken.Document.Basic
import DidToken.Document.Json
import DidToken.Document.Sample
import DidToken.Attribution
import DidToken.Resolver
import DidToken.Registry
import DidToken.Sharing
import DidToken.Token.Error
import DidToken.Token.Header
import DidToken.Token.Payload
import DidToken.Token.Compact
import DidToken.Token.Issue
import DidToken.Token.Draft
import DidToken.Token.Verify
import DidToken.Proofs.Checks
import DidToken.Proofs.Assoc
import DidToken.Proofs.Text.Utf8
import DidToken.Proofs.Text.Base64
import DidToken.Proofs.Text.Blank
import DidToken.Proofs.Text.Hex
import DidToken.Proofs.Text.Numeral
import DidToken.Proofs.Bytes
import DidToken.Proofs.Text.Base58
import DidToken.Proofs.Secp256k1.Residues
import DidToken.Proofs.Secp256k1.Primes
import DidToken.Proofs.Secp256k1.Field
import DidToken.Proofs.Secp256k1.Curve
import DidToken.Proofs.Secp256k1.Order
import DidToken.Proofs.Secp256k1.Ecdsa
import DidToken.Proofs.Secp256k1.Recovery
import DidToken.Proofs.PublicKey
import DidToken.Proofs.Did
import DidToken.Proofs.Did.Text
import DidToken.Proofs.Signature
import DidToken.Proofs.KeyPair
import DidToken.Proofs.PrivateKey
import DidToken.Proofs.Attribution
import DidToken.Proofs.Materials
import DidToken.Proofs.Spelling
import DidToken.Proofs.Registry
import DidToken.Proofs.Sharing
import DidToken.Proofs.Removal
import DidToken.Proofs.Json.Reading
import DidToken.Proofs.Json.Strings
import DidToken.Proofs.Json.Digits
import DidToken.Proofs.Json.Integers
import DidToken.Proofs.Json.Values
import DidToken.Proofs.Json.RoundTrip
import DidToken.Proofs.Json.Spaced
import DidToken.Proofs.Json.Grammar
import DidToken.Proofs.Json.Names
import DidToken.Proofs.Json.Records
import DidToken.Proofs.Json.Arrangement
import DidToken.Proofs.Document
import DidToken.Proofs.Json.Simulation
import DidToken.Proofs.Json.Regular
import DidToken.Proofs.Token.Compact
import DidToken.Proofs.Token.Padding
import DidToken.Proofs.Token.Issue
import DidToken.Proofs.Token.Payload
import DidToken.Proofs.Token.Merging
import DidToken.Proofs.Token.Drafting
import DidToken.Proofs.Token.TypedView
import DidToken.Proofs.Token.Rewriting
import DidToken.Proofs.Token.Lifetime
import DidToken.Proofs.Token.Verify
import DidToken.Proofs.Token.Soundness
import DidToken.Proofs.Token.Policy
import DidToken.Proofs.Token.Resolved
import DidToken.Proofs.Token.Completeness
import DidToken.Proofs.Token.Audience
import DidToken.Proofs.Token.SignatureFormat
import DidToken.Proofs.Token.Segments
import DidToken.Proofs.Token.Splitting
import DidToken.Proofs.Token.Concurrent
import DidToken.Proofs.Token.OwnAudience
import DidToken.Proofs.Token.Times
import DidToken.Proofs.Signature.Bytes
import DidToken.Proofs.Signature.RecoveryId
import DidToken.Proofs.Signature.Opposite
import DidToken.Proofs.Signature.Fallback
import DidToken.Proofs.Document.Sample
