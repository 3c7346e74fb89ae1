import DocSite.Application
import DocSite.CommandLine.Grammar
import DocSite.CommandLine.Invocation
import DocSite.CommandLine.Run
import DocSite.CommandLine.Token
import DocSite.CommandLine.Usage
import DocSite.Decode
import DocSite.Encode
import DocSite.Files
import DocSite.Finding
import DocSite.Format
import DocSite.Http.Answer
import DocSite.Http.Body
import DocSite.Http.Endpoint
import DocSite.Http.Layer
import DocSite.Http.Limiter
import DocSite.Http.Message
import DocSite.Http.Service
import DocSite.Json.Basic
import DocSite.Json.Reader
import DocSite.Json.Writer
import DocSite.Link.Normal
import DocSite.Link.Reference
import DocSite.Log
import DocSite.Main
import DocSite.Number.Binary64
import DocSite.Number.Reader
import DocSite.Number.Shortest
import DocSite.Path
import DocSite.Proofs.Fault
import DocSite.Proofs.Finding
import DocSite.Proofs.Link.Normal
import DocSite.Proofs.Path
import DocSite.Proofs.Schema.Review
import DocSite.Proofs.Text.Trim
import DocSite.Proofs.TextMap
import DocSite.Proofs.Value
import DocSite.Schema.Build
import DocSite.Schema.Review
import DocSite.Settings.Basic
import DocSite.Settings.Document
import DocSite.Settings.Environment
import DocSite.Settings.Load
import DocSite.Site.Basic
import DocSite.Site.Declaration
import DocSite.Site.Memory
import DocSite.Site.Reconcile
import DocSite.Site.Sidebar
import DocSite.Store
import DocSite.Text.Blank
import DocSite.Text.Case
import DocSite.Text.Category
import DocSite.Text.Order
import DocSite.Text.Quoted
import DocSite.TextMap
import DocSite.Time.Calendar
import DocSite.Time.Duration
import DocSite.Toml.Lexeme
import DocSite.Toml.Reader
import DocSite.Toml.Table
import DocSite.Toml.Writer
import DocSite.Value
import DocSite.Yaml.Alphabet
import DocSite.Yaml.Cursor
import DocSite.Yaml.Lexeme
import DocSite.Yaml.Node.Basic
import DocSite.Yaml.Node.Reader
import DocSite.Yaml.Node.Record
import DocSite.Yaml.Node.Value
import DocSite.Yaml.Page
import DocSite.Yaml.Reader
import DocSite.Yaml.Resolution
import DocSite.Yaml.Timestamp
import DocSite.Yaml.Token
import DocSite.Yaml.Writer
import DocSite.Proofs.Schema.Declared
import DocSite.Proofs.Site.Sidebar
import DocSite.Proofs.Site.WellFormed
import DocSite.Proofs.Schema.Grammar
import DocSite.Proofs.Json.Value
import DocSite.Proofs.Site.Declaration
import DocSite.Proofs.Site.RoundTrip
import DocSite.Proofs.Http.Endpoint
import DocSite.Proofs.Http.Run
import DocSite.Proofs.Site.Reconcile
import DocSite.Proofs.Fields
import DocSite.Proofs.Json.Reader
import DocSite.Proofs.Schema.Restated
import DocSite.Proofs.Toml.Lexeme
import DocSite.Proofs.Toml.Reader
import DocSite.Proofs.Yaml.Gap
import DocSite.Proofs.Yaml.Plain
import DocSite.Proofs.Yaml.Quoted
import DocSite.Proofs.Yaml.Literal
import DocSite.Proofs.Yaml.Style
import DocSite.Proofs.Yaml.Token
import DocSite.Proofs.Yaml.Scan
import DocSite.Proofs.Yaml.Node
import DocSite.Proofs.Yaml.Reader
import DocSite.Proofs.Site.Depth
import DocSite.Proofs.Yaml.Page
import DocSite.Proofs.Format
import DocSite.Proofs.Application
import DocSite.Proofs.Store.Interleaving
import DocSite.Proofs.Store.Reloading
import DocSite.Proofs.Site.Memory
import DocSite.Proofs.Store.Run
import DocSite.Proofs.Json.Stream
import DocSite.Proofs.Http.Body
import DocSite.Proofs.Number.Decimal
import DocSite.Proofs.Number.Shortest
import DocSite.Proofs.Schema.Outline
import DocSite.Proofs.Schema.Printed
import DocSite.Proofs.Http.Agreement
import DocSite.Proofs.Http.Layer
import DocSite.Proofs.Path.Lexical
import DocSite.Proofs.Link.Canonical
import DocSite.Proofs.Site.Duplicates
import DocSite.Proofs.Schema.Order
import DocSite.Proofs.Schema.Place
import DocSite.Proofs.Schema.Entries
import DocSite.Proofs.Schema.Part
import DocSite.Proofs.Schema.Warnings
import DocSite.Proofs.Schema.Simulation
import DocSite.Proofs.Schema.Containers
import DocSite.Proofs.Schema.Edited
import DocSite.Proofs.Site.Nulls
import DocSite.Proofs.Path.Upward
import DocSite.Proofs.Settings.Layer
import DocSite.Proofs.Settings.Load
import DocSite.Proofs.Site.Spelled
import DocSite.Proofs.Text.Bytes
import DocSite.Proofs.Link.Scheme
