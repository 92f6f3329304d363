import Shamichan.Utf8
import Shamichan.OpenPost
import Shamichan.OpenPost.Body
import Shamichan.OpenPost.Lines
import Shamichan.OpenPost.Replica
import Shamichan.Db.Feed
import Shamichan.Db.Store
import Shamichan.Db.Posts
import Shamichan.Db.History
import Shamichan.Db.Bump
import Shamichan.Db.Upload
import Shamichan.Db.Subscription
import Shamichan.OpenPost.Splice
import Shamichan.OpenPost.Laws
import Shamichan.OpenPost.Close
import Shamichan.Db.Remove
import Shamichan.Pix.Uploading
import Shamichan.Db.Join
import Shamichan.Db.Reader
import Shamichan.Pix.Thumb
import Shamichan.Db.Backlog
import Shamichan.Db.Blocks
import Shamichan.Db.Numbering
import Shamichan.Db.Image
import Shamichan.Pix.Bury
import Shamichan.Db.Thread
import Shamichan.Db.Lookup
import Shamichan.Db.RemovePost
import Shamichan.Client.MeguTv
import Shamichan.Client.Handlers
