import GraphileWorker.Migrations.SchemaName

/-! # Lines that several migrations have

A migration that replaces a function repeats most of its body.
-/
namespace GraphileWorker.Migrations.Scripts

def insertQueueName : List String := ["        if queue_name is not null then
            insert into @._private_job_queues as job_queues (queue_name)
            values (queue_name)
            on conflict do nothing;
        end if;"]

def resetUnlocked : List String := ["                -- always reset error/retry state
                attempts=0,
                last_error=null
            where jobs.locked_at is null
            returning *
            into v_job;"]

def recoverUpdate : List String := ["        UPDATE @._private_jobs AS jobs
        SET
            attempts = CASE WHEN EXISTS (
                SELECT 1 FROM @._private_job_retirements AS retired
                WHERE retired.id = jobs.id"]

def attemptable : List String := ["        and attempts < max_attempts
        and (task_identifiers is null or task_identifier = any(task_identifiers))"]

def plainValues : List String := ["    )
        values(
            identifier,
            coalesce(payload, '\x7b\x7d'::json),
            queue_name,
            coalesce(run_at, now()),
            coalesce(max_attempts, 25),
            job_key,"]

def insertJobHead : List String := ["    insert into @.jobs(
        task_identifier,
        payload,
        queue_name,
        run_at,
        max_attempts,
        key,"]

def keyedValues : List String := ["        )
            values(
                identifier,
                coalesce(payload, '\x7b\x7d'::json),
                queue_name,
                coalesce(run_at, now()),
                coalesce(max_attempts, 25),
                job_key,"]

def delegateHead : List String := ["begin
    if (job_key is null or job_key_mode is null or job_key_mode in ('replace', 'preserve_run_at')) then
        select * into v_job
        from @.add_jobs(
            ARRAY[(
                identifier,
                payload,
                queue_name,
                run_at,"]

def insertQueueNames : List String := ["    insert into @._private_job_queues as job_queues (queue_name)
    select distinct spec.queue_name
    from unnest(specs) spec
    where spec.queue_name is not null"]

def staleList : List String := ["    stale_threshold interval
) RETURNS TABLE(worker_id text)
LANGUAGE sql
AS $$
    SELECT workers.id AS worker_id
    FROM @._private_workers AS workers
    WHERE workers.last_heartbeat_at < now() - stale_threshold;
$$;"]

def queueReleased : List String := ["    if v_row.queue_name is not null then
        update @.job_queues
            set locked_by = null, locked_at = null
            where queue_name = v_row.queue_name and locked_by = worker_id;
    end if;

    return v_row;
end;"]

def rescheduleBody : List String := ["    update @.jobs
        set
            run_at = coalesce(reschedule_jobs.run_at, jobs.run_at),
            priority = coalesce(reschedule_jobs.priority, jobs.priority),
            attempts = coalesce(reschedule_jobs.attempts, jobs.attempts),"]

def notifyInserted : List String := ["        if v_job.revision = 0 then
            perform pg_notify('jobs:insert', '\x7b\"r\":' || random()::text || ',\"count\":1\x7d');
        end if;"]

def addJobParameters : List String := ["create function @.add_job(
    identifier text,
    payload json = null,
    queue_name text = null,
    run_at timestamptz = null,"]

def keyModeError : List String := ["        raise exception 'Invalid job_key_mode value, expected ''replace'', ''preserve_run_at'' or ''unsafe_dedupe''.' using errcode = 'GWBKM';
    end if;"]

def bumpRevision : List String := ["        on conflict (key)
        do update set
            revision = jobs.revision + 1,
            updated_at = now()
        returning *
        into v_job;"]

def checkWorkerId : List String := ["begin
    if worker_id is null or length(worker_id) < 10 then
        raise exception 'invalid worker id';
    end if;
"]

def keepRunAt : List String := ["        max_attempts = excluded.max_attempts,
        run_at = (case
            when job_key_preserve_run_at is true and jobs.attempts = 0 then jobs.run_at
            else excluded.run_at
        end),
        priority = excluded.priority,
        revision = jobs.revision + 1,
        flags = excluded.flags,"]

def recoverHead : List String := ["    worker_ids text[],
    recovery_delay interval DEFAULT interval '0 seconds'
) RETURNS integer
LANGUAGE plpgsql
AS $$
DECLARE
    recovered_count integer := 0;
BEGIN
    WITH j AS (
        UPDATE @._private_jobs AS jobs
        SET
            attempts = GREATEST(0, jobs.attempts - 1),"]

def dedupeChecked : List String := ["
        if v_job.id is null then
            raise exception 'Unable to schedule job for key \"%\"', coalesce(job_key, '<null>') using errcode = 'GWNOR';
        end if;

        return v_job;
    elsif job_key_mode = 'unsafe_dedupe' then
        insert into @._private_tasks as tasks (identifier)"]

def failUpdate : List String := ["    UPDATE @._private_jobs AS jobs
    SET
        last_error = COALESCE(error_message, 'Manually marked as failed'),
        attempts = max_attempts,
        updated_at = now()
    WHERE id = ANY(job_ids)
    AND (
        locked_at IS NULL
    OR
        locked_at < NOW() - interval '4 hours'
    )"]

def notifyCount : List String := ["    perform pg_notify('jobs:insert', '\x7b\"r\":' || random()::text || ',\"count\":' || array_length(specs, 1)::text || '\x7d');
"]

def queueUnlocked : List String := ["    update @.job_queues
        set locked_by = null, locked_at = null
        where queue_name = v_row.queue_name and locked_by = worker_id;

    return v_row;
end;"]

def idleById : List String := ["        where id = any(job_ids)
        and (
            locked_by is null
            or
            locked_at < NOW() - interval '4 hours'
        )
        returning *;
$$ language sql volatile;"]

def selectQueue : List String := attemptable ++ ["        order by priority asc, run_at asc, id asc
        limit 1
        for update of job_queues
        skip locked;

    if v_queue_name is null then
        return null;
    end if;

    update @.job_queues
        set
            locked_by = worker_id,"]

def heartbeatUpsert : List String := ["    worker_id text,
    metadata json DEFAULT NULL::json
) RETURNS void
LANGUAGE sql
AS $$
    INSERT INTO @._private_workers AS workers (id, last_heartbeat_at, metadata)
    VALUES (worker_heartbeat.worker_id, now(), metadata::jsonb)
    ON CONFLICT (id) DO UPDATE
    SET
        last_heartbeat_at = now(),
        metadata = COALESCE(EXCLUDED.metadata, workers.metadata);
$$;"]

def claimRow : List String := ["
    update @.jobs
        set
            attempts = attempts + 1,
            locked_by = worker_id,
            locked_at = v_now
        where id = v_job_id
        returning * into v_row;"]

def keyIndexNote : List String := ["    -- The unique key index is the final arbiter for concurrent callers:
    -- once unavailable matching jobs have their key cleared, competing
    -- inserts for the same key are resolved by the ON CONFLICT update below."]

def lockSelected : List String := ["        order by priority asc, run_at asc, id asc
        limit 1
        for update
        skip locked;

    if v_job_id is null then
        return null;
    end if;

    if v_queue_name is not null then
        update @.job_queues"]

def dedupeWarning : List String := ["        -- Insert job, but if one already exists then do nothing, even if the
        -- existing job has already started (and thus represents an out-of-date
        -- world state). This is dangerous because it means that whatever state
        -- change triggered this add_job may not be acted upon (since it happened
        -- after the existing job started executing, but no further job is being
        -- scheduled), but it is useful in very rare circumstances for
        -- de-duplication. If in doubt, DO NOT USE THIS."]

def specColumns : List String := ["        job_queue_id,
        task_id,
        payload,
        run_at,
        max_attempts,
        key,
        priority,
        flags
    )
        select
            job_queues.id,
            tasks.id,
            coalesce(spec.payload, '\x7b\x7d'::json),
            coalesce(spec.run_at, now()),
            coalesce(spec.max_attempts, 25),
            spec.job_key,
            coalesce(spec.priority, 0),
            (
                select jsonb_object_agg(flag, true)
                from unnest(spec.flags) as item(flag)
            )"]

def retireLocked : List String := ["    set
        key = null,
        attempts = jobs.max_attempts,
        updated_at = now()
    from unnest(specs) spec
    where spec.job_key is not null
    and jobs.key = spec.job_key
    and is_available is not true;"]

def addJobsInsert : List String := ["    return query insert into @._private_jobs as jobs ("] ++ specColumns ++ ["        from unnest(specs) spec
        inner join @._private_tasks as tasks
        on tasks.identifier = spec.identifier
        left join @._private_job_queues as job_queues
        on job_queues.queue_name = spec.queue_name
    on conflict (key) do update set
        job_queue_id = excluded.job_queue_id,
        task_id = excluded.task_id,
        payload =
            case
            when json_typeof(jobs.payload) = 'array' and json_typeof(excluded.payload) = 'array' then
                (jobs.payload::jsonb || excluded.payload::jsonb)::json
            else
                excluded.payload
            end,"] ++ keepRunAt

def upsertFallback : List String := [""] ++ resetUnlocked ++ ["
        -- If upsert succeeded (insert or update), return early
        if not (v_job is null) then
            return v_job;
        end if;

        -- Upsert failed -> there must be an existing job that is locked. Remove
        -- existing key to allow a new one to be inserted, and prevent any
        -- subsequent retries by bumping attempts to the max allowed.
        update @.jobs
            set
                key = null,
                attempts = jobs.max_attempts
            where key = job_key;
    end if;

    -- insert the new job. Assume no conflicts due to the update above"]

def dedupeColumns : List String := ["            job_queue_id,
            task_id,
            payload,
            run_at,
            max_attempts,
            key,
            priority,
            flags
        )
        select
            job_queues.id,
            tasks.id,
            coalesce(payload, '\x7b\x7d'::json),
            coalesce(run_at, now()),
            coalesce(max_attempts::smallint, 25::smallint),
            job_key,
            coalesce(priority::smallint, 0::smallint),
            (
                select jsonb_object_agg(flag, true)
                from unnest(flags) as item(flag)
            )"]

def addJobReplaces : List String := delegateHead ++ ["                max_attempts::smallint,
                job_key,
                priority::smallint,
                flags
            )::@.job_spec],
            (job_key_mode = 'preserve_run_at')
        )
        limit 1;"]

def addJobsBody : List String := ["    specs @.job_spec[],
    job_key_preserve_run_at boolean default false
)
returns setof @.jobs
as $$
begin
    -- Ensure all the tasks exist
    insert into @.tasks (identifier)
    select distinct spec.identifier
    from unnest(specs) spec
    on conflict do nothing;

    -- Ensure all the queues exist
    insert into @.job_queues (queue_name)
    select distinct spec.queue_name
    from unnest(specs) spec
    where spec.queue_name is not null
    on conflict do nothing;

    -- Ensure any locked jobs have their key cleared - in the case of locked
    -- existing job create a new job instead as it must have already started
    -- executing (i.e. it's world state is out of date, and the fact add_job
    -- has been called again implies there's new information that needs to be
    -- acted upon).
    update @.jobs"] ++ retireLocked ++ [""] ++ keyIndexNote ++ ["
    return query insert into @.jobs ("] ++ specColumns

def dedupeInsert : List String := dedupeWarning ++ ["        insert into @.jobs (
            job_queue_id,
            task_id,
            payload,
            run_at,
            max_attempts,
            key,
            priority,
            flags
        )
            select
                job_queues.id,
                tasks.id,
                coalesce(add_job.payload, '\x7b\x7d'::json),
                coalesce(add_job.run_at, now()),
                coalesce(add_job.max_attempts, 25),
                add_job.job_key,
                coalesce(add_job.priority, 0),
                (
                    select jsonb_object_agg(flag, true)
                    from unnest(add_job.flags) as item(flag)
                )
            from @.tasks
            left join @.job_queues
            on job_queues.queue_name = add_job.queue_name
            where tasks.identifier = add_job.identifier
        on conflict (key)
            -- Bump the updated_at so that there's something to return
            do update set
                revision = jobs.revision + 1,
                updated_at = now()
            returning *
            into v_job;
        return v_job;
    else"] ++ keyModeError ++ ["end;"]

def addJobsLocks : List String := ["CREATE OR REPLACE FUNCTION @.add_jobs(specs @.job_spec[], job_key_preserve_run_at boolean DEFAULT false) RETURNS SETOF @._private_jobs
LANGUAGE plpgsql
AS $$
declare
    locked_key text;
begin
    for locked_key in
        select distinct spec.job_key
        from unnest(specs) spec
        where spec.job_key is not null
        order by spec.job_key
    loop
        perform pg_advisory_xact_lock(hashtext(locked_key));
    end loop;

    perform 1
    from @._private_jobs as jobs
    where jobs.key = any(
        array(
            select distinct spec.job_key
            from unnest(specs) spec
            where spec.job_key is not null
        )
    )
    for update;

    insert into @._private_tasks as tasks (identifier)
    select distinct spec.identifier
    from unnest(specs) spec"]

def addJobChecks : List String := [") returns @.jobs as $$
declare
    v_job @.jobs;
begin
    -- Apply rationality checks
    if length(identifier) > 128 then
        raise exception 'Task identifier is too long (max length: 128).' using errcode = 'GWBID';
    end if;
    if queue_name is not null and length(queue_name) > 128 then
        raise exception 'Job queue name is too long (max length: 128).' using errcode = 'GWBQN';
    end if;
    if job_key is not null and length(job_key) > 512 then
        raise exception 'Job key is too long (max length: 512).' using errcode = 'GWBJK';
    end if;
    if max_attempts < 1 then"]

def recoveredQueues : List String := ["            locked_by = NULL,
            locked_at = NULL,
            run_at = GREATEST(jobs.run_at, now() + recovery_delay),
            last_error = 'Job recovered after worker interruption',
            updated_at = now()
        WHERE jobs.locked_by = ANY(worker_ids)
        RETURNING jobs.job_queue_id
    )
    SELECT COUNT(*) INTO recovered_count FROM j;

    UPDATE @._private_job_queues AS job_queues
    SET locked_by = NULL, locked_at = NULL
    WHERE job_queues.locked_by = ANY(worker_ids);

    RETURN recovered_count;
END;
$$;"]

def jobValues : List String := ["        insert into @.jobs (
            task_identifier,
            payload,
            queue_name,
            run_at,
            max_attempts,
            key,
            priority,
            flags"] ++ keyedValues ++ ["                coalesce(priority, 0),
                ("]

def addJobsNames : List String := ["LANGUAGE plpgsql
AS $$
begin
    -- Ensure all the tasks exist
    insert into @._private_tasks as tasks (identifier)
    select distinct spec.identifier
    from unnest(specs) spec
    on conflict do nothing;
    -- Ensure all the queues exist"] ++ insertQueueNames ++ ["    on conflict do nothing;
    -- Ensure any locked jobs have their key cleared - in the case of locked
    -- existing job create a new job instead as it must have already started
    -- executing (i.e., it's world state is out of date, and the fact add_job
    -- has been called again implies there's new information that needs to be
    -- acted upon).
    update @._private_jobs as jobs"] ++ retireLocked

def selectJob : List String := ["declare
    v_job_id bigint;
    v_queue_name text;
    v_row @.jobs;
    v_now timestamptz = now();"] ++ checkWorkerId ++ ["    select jobs.queue_name, jobs.id into v_queue_name, v_job_id
        from @.jobs
        where (jobs.locked_at is null or jobs.locked_at < (v_now - job_expiry))
        and (
            jobs.queue_name is null
            or
            exists (
                select 1
                from @.job_queues
                where job_queues.queue_name = jobs.queue_name
                and (job_queues.locked_at is null or job_queues.locked_at < (v_now - job_expiry))
                for update
                skip locked
            )
        )
        and run_at <= v_now"] ++ attemptable

def addJobHead : List String := ["CREATE OR REPLACE FUNCTION @.add_job(identifier text, payload json DEFAULT NULL::json, queue_name text DEFAULT NULL::text, run_at timestamp with time zone DEFAULT NULL::timestamp with time zone, max_attempts integer DEFAULT NULL::integer, job_key text DEFAULT NULL::text, priority integer DEFAULT NULL::integer, flags text[] DEFAULT NULL::text[], job_key_mode text DEFAULT 'replace'::text) RETURNS @._private_jobs
LANGUAGE plpgsql
AS $$
declare
    v_job @._private_jobs;"]

def addJobDelegates : List String := ["declare
    v_job @.jobs;"] ++ delegateHead ++ ["                max_attempts,
                job_key,
                priority,
                flags
            )::@.job_spec],
            (job_key_mode = 'preserve_run_at')
        )
        limit 1;
        return v_job;
    elsif job_key_mode = 'unsafe_dedupe' then
        -- Ensure all the tasks exist
        insert into @.tasks (identifier)
        values (add_job.identifier)
        on conflict do nothing;"]

def dedupeConflict : List String := ["        from @._private_tasks as tasks
        left join @._private_job_queues as job_queues
        on job_queues.queue_name = add_job.queue_name
        where tasks.identifier = add_job.identifier"] ++ bumpRevision

def removeUnlocked : List String := ["LANGUAGE plpgsql STRICT
AS $$
declare
    v_job @._private_jobs;
begin
    -- Delete job if not locked
    DELETE FROM @._private_jobs AS jobs
    WHERE key = job_key
    AND (
        locked_at IS NULL
    OR
        locked_at < NOW() - interval '4 hours'
    )
    RETURNING * INTO v_job;
    IF NOT (v_job IS NULL) THEN"]

def addJobEnd : List String := ["        return v_job;
    else"] ++ keyModeError ++ ["end;
$$;"]

def upsertColumns : List String := ["            )
            on conflict (key) do update set
                task_identifier=excluded.task_identifier,
                payload=excluded.payload,
                queue_name=excluded.queue_name,
                max_attempts=excluded.max_attempts,"]

def staleWorkers : List String := ["    stale_threshold interval
) RETURNS TABLE(worker_id text)
LANGUAGE sql
AS $$
    SELECT DISTINCT locks.locked_by AS worker_id
    FROM (
        SELECT jobs.locked_by, jobs.locked_at
        FROM @._private_jobs AS jobs
        WHERE jobs.locked_by IS NOT NULL
        UNION ALL
        SELECT job_queues.locked_by, job_queues.locked_at
        FROM @._private_job_queues AS job_queues
        WHERE job_queues.locked_by IS NOT NULL
    ) AS locks
    WHERE locks.locked_at < now() - stale_threshold
    AND NOT EXISTS (
        SELECT 1
        FROM @._private_workers AS workers
        WHERE workers.id = locks.locked_by
    );
$$;"]

def addJobsReset : List String := ["        attempts = 0,
        last_error = null,
        updated_at = now()
    where jobs.locked_at is null
    returning *;
end;"]

def addJobUpsert : List String := ["    identifier text,
    payload json = '\x7b\x7d',
    queue_name text = null,
    run_at timestamptz = now(),
    max_attempts int = 25,
    job_key text = null
) returns @.jobs as $$
declare
    v_job @.jobs;
begin
    if job_key is not null then
        -- Upsert job
        insert into @.jobs (task_identifier, payload, queue_name, run_at, max_attempts, key)
            values(
                identifier,
                payload,
                queue_name,
                run_at,
                max_attempts,
                job_key"]

def dedupeNames : List String := ["        return v_job;
    elsif job_key_mode = 'unsafe_dedupe' then
        -- Ensure all the tasks exist
        insert into @._private_tasks as tasks (identifier)
        values (identifier)
        on conflict do nothing;
        -- Ensure all the queues exist"] ++ insertQueueName ++ ["        -- Insert job, but if one already exists then do nothing
        insert into @._private_jobs as jobs ("]

def removeLocked : List String := ["        RETURN v_job;
    END IF;
    -- Otherwise prevent job from retrying, and clear the key
    UPDATE @._private_jobs AS jobs
    SET
        key = NULL,
        attempts = jobs.max_attempts,
        updated_at = now()
    WHERE key = job_key
    RETURNING * INTO v_job;"]

def missingNames : List String := ["    where not exists (
        select 1 from @._private_tasks as existing
        where existing.identifier = spec.identifier
    )
    on conflict do nothing;
"] ++ insertQueueNames ++ ["    and not exists (
        select 1 from @._private_job_queues as existing
        where existing.queue_name = spec.queue_name
    )
    on conflict do nothing;
"]

def failJobUpdate : List String := ["create or replace function @.fail_job(worker_id text, job_id bigint, error_message text) returns @.jobs as $$
declare
    v_row @.jobs;
begin
    update @.jobs
        set
            last_error = error_message,
            run_at = greatest(now(), run_at) + (exp(least(attempts, 10))::text || ' seconds')::interval,
            locked_by = null,
            locked_at = null
        where id = job_id and locked_by = worker_id
        returning * into v_row;
"]

def rescheduleUpdate : List String := ["    UPDATE @._private_jobs AS jobs
    SET
        run_at = COALESCE(reschedule_jobs.run_at, jobs.run_at),
        priority = COALESCE(reschedule_jobs.priority::smallint, jobs.priority),
        attempts = COALESCE(reschedule_jobs.attempts::smallint, jobs.attempts),
        max_attempts = COALESCE(reschedule_jobs.max_attempts::smallint, jobs.max_attempts),
        updated_at = now()
    WHERE id = ANY(job_ids)
    AND (
        locked_at IS NULL
    OR
        locked_at < NOW() - interval '4 hours'
    )"]

def addJobPlain : List String := ["    insert into @.jobs(task_identifier, payload, queue_name, run_at, max_attempts, key)
        values(
            identifier,
            payload,
            queue_name,
            run_at,
            max_attempts,
            job_key
        )
        returning *
        into v_job;

    return v_job;
end;
$$ language plpgsql volatile;"]

def deregisterLines : List String := ["CREATE FUNCTION @.worker_deregister(worker_id text) RETURNS void
LANGUAGE sql
AS $$
    DELETE FROM @._private_workers
    WHERE id = worker_deregister.worker_id;
$$;"]

end GraphileWorker.Migrations.Scripts
