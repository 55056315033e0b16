import Marketplace.Locks
import Marketplace.Main
import Marketplace.Proofs.Catalog.Serial
import Marketplace.Proofs.Job.Career
import Marketplace.Proofs.Order.Checkout
import Marketplace.Proofs.Order.Placement
import Marketplace.Proofs.Server.Services
import Marketplace.Proofs.Shop.Toggle
import Marketplace.Service.Rehearsal
import Marketplace.Proofs.Notify.Letters
import Marketplace.Proofs.Notify.Told
import Marketplace.Proofs.Notify.Announced
import Marketplace.Proofs.Isolation.Others
import Marketplace.Proofs.Isolation.Writes
import Marketplace.Proofs.Order.Sequence
import Marketplace.Proofs.Isolation.View
import Marketplace.Proofs.Isolation.Answers
import Marketplace.Proofs.Locks.Exclusion
import Marketplace.Proofs.Catalog.Reading
import Marketplace.Proofs.Order.Addition
import Marketplace.Proofs.Order.Views
import Marketplace.Proofs.Catalog.Identity
import Marketplace.Proofs.Server.Tokens
import Marketplace.Proofs.Import.Verdict
import Marketplace.Proofs.Job.Backoff
import Marketplace.Proofs.Job.Rest
import Marketplace.Proofs.Job.Schedule
import Marketplace.Proofs.Json.Reading
import Marketplace.Proofs.Json.Yields
import Marketplace.Proofs.Order.Update
import Marketplace.Proofs.Job.Claim
import Marketplace.Proofs.Job.Retention
import Marketplace.Proofs.Job.Drain
import Marketplace.Proofs.Job.Shift
import Marketplace.Proofs.Import.Judged
import Marketplace.Proofs.Import.Summary
import Marketplace.Proofs.Order.Totals
import Marketplace.Proofs.Contact.Valid
import Marketplace.Proofs.Catalog.Search
import Marketplace.Proofs.Account.Validation
import Marketplace.Proofs.Order.ItemLists
import Marketplace.Proofs.Order.IdLists
import Marketplace.Proofs.Wire.Job
import Marketplace.Proofs.Wire.PriceList
import Marketplace.Proofs.Http.Header
import Marketplace.Proofs.Locks.Refinement
import Marketplace.Proofs.Http.Content
